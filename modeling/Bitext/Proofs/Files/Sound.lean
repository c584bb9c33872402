import Bitext.Proofs.Files.Removal
import Mathlib.Data.List.Nodup

/-!
# Sound file trees

In a file tree as operating systems have them, there is one thing at a place, everything is in a
directory, and everything in a directory has a name.  Operations keep a tree sound; only a directory
that is moved must not be moved into itself, which it is not if just its name changes.

## Main definitions

* `FileTree.IsSound`: file trees as operating systems have them.
* `KeepsSound`: programs that leave a sound tree sound.

## Main results

* `FileTree.IsSound.of_resolve`: where paths lead in a sound tree
* `FileTree.IsSound.withDirectory`, `FileTree.IsSound.withFile`, `FileTree.IsSound.withoutTree`,
  `FileTree.IsSound.withMoved`: operations keep a tree sound
-/

namespace Bitext

/-- A file tree as operating systems have them. -/
structure FileTree.IsSound (t : FileTree) : Prop where
  /-- There is one thing at a place. -/
  distinct : (t.nodes.map (·.1)).Nodup
  /-- What there is has a directory around it. -/
  around : ∀ place name, t.node? (place ++ [name]) ≠ none → t.node? place = some .directory
  /-- What there is has a name. -/
  isName : ∀ place name, t.node? (place ++ [name]) ≠ none → Path.IsName name

namespace FileTree

variable {t t' : FileTree} {place p q : Place} {name path base source target : Text}

theorem node?_nil (t : FileTree) : t.node? [] = some .directory := rfl

theorem node?_of_ne (hp : p ≠ []) : t.node? p = t.nodes.lookup p := by
  rw [node?, if_neg (by simpa using hp)]

theorem node?_ne_none_iff (hp : p ≠ []) : t.node? p ≠ none ↔ p ∈ t.nodes.map (·.1) := by
  rw [node?_of_ne hp, ne_eq, List.lookup_eq_none_iff, List.mem_map]
  constructor
  · intro h
    by_contra hnone
    refine h fun n hn => ?_
    rw [bne_iff_ne]
    rintro rfl
    exact hnone ⟨n, hn, rfl⟩
  · rintro ⟨n, hn, rfl⟩ h
    exact bne_iff_ne.mp (h n hn) rfl

theorem node?_ne_none_of_mem {n : Place × Node} (hn : n ∈ t.nodes) : t.node? n.1 ≠ none := by
  rcases eq_or_ne n.1 [] with hroot | hne
  · rw [hroot]
    exact Option.some_ne_none _
  · exact (node?_ne_none_iff hne).mpr (List.mem_map_of_mem hn)

/-- A tree in which there is nothing is sound. -/
theorem isSound_empty : ({} : FileTree).IsSound := by
  have hnone (place : Place) (name : Text) : ({} : FileTree).node? (place ++ [name]) = none :=
    node?_of_ne (List.append_ne_nil_of_right_ne_nil _ (List.cons_ne_nil _ _))
  refine ⟨List.nodup_nil, ?_, ?_⟩
  · intro place name hnode
    exact absurd (hnone place name) hnode
  · intro place name hnode
    exact absurd (hnone place name) hnode

namespace IsSound

/-- All that something is inside of is a directory. -/
theorem directory_of_append (h : t.IsSound) (hp : t.node? (p ++ q) ≠ none) (hq : q ≠ []) :
    t.node? p = some .directory := by
  induction q using List.reverseRecOn with
  | nil => exact absurd rfl hq
  | append_singleton q name ih =>
    rw [← List.append_assoc] at hp
    have hinner : t.node? (p ++ q) = some .directory := h.around _ _ hp
    rcases eq_or_ne q [] with rfl | hne
    · rwa [List.append_nil] at hinner
    · exact ih (by rw [hinner]; exact Option.some_ne_none _) hne

/-- **Where paths lead**: to a directory, or to a name in a directory. -/
theorem of_resolve (h : t.IsSound) (hresolve : t.resolve path = .ok place) :
    t.node? place = some .directory ∨
      ∃ around name, place = around ++ [name] ∧ t.node? around = some .directory ∧
        Path.IsName name := by
  have hpath : path ≠ [] := by
    rintro rfl
    cases hresolve
  obtain ⟨hway, rfl⟩ := (resolve_eq_ok hpath).mp hresolve
  obtain ⟨front, last, hsteps⟩ :=
    (List.eq_nil_or_concat (Path.steps path)).resolve_left (Path.steps_ne_nil path)
  rw [List.concat_eq_append] at hsteps
  rw [passed, hsteps, Place.way_concat] at hway
  rw [FileTree.target, hsteps, Place.walk_concat]
  have hlast : last ∈ Path.steps path := by
    rw [hsteps]
    exact List.mem_append_right _ List.mem_cons_self
  have hdirectory := hway _ (List.mem_append_right _ List.mem_cons_self)
  rcases Path.eq_dot_or_dots_or_isName hlast with rfl | rfl | hname
  · exact .inl hdirectory
  -- Around a directory there is a directory, and the root is its own.
  · left
    show t.node? ((t.start path).walk front).dropLast = _
    rcases List.eq_nil_or_concat ((t.start path).walk front) with hroot | ⟨around, name, hconcat⟩
    · rw [hroot]
      exact node?_nil t
    · rw [hconcat, List.concat_eq_append] at hdirectory ⊢
      rw [List.dropLast_concat]
      exact h.around _ _ (by rw [hdirectory]; exact Option.some_ne_none _)
  · rw [Place.step_of_isName hname]
    exact .inr ⟨_, _, rfl, hdirectory, hname⟩

/-! ## Making directories and writing files -/

/-- Something can be put in a directory, in place of what is no directory. -/
theorem put (h : t.IsSound) (hplace : t.node? place = some .directory) (hname : Path.IsName name)
    (hnone : t.node? (place ++ [name]) ≠ some .directory) (node : Node) :
    (t.put (place ++ [name]) node).IsSound := by
  -- No directory is replaced, so all directories stay.
  have hkept {p : Place} (hp : t.node? p = some .directory) :
      (t.put (place ++ [name]) node).node? p = some .directory := by
    rw [node?_put_of_ne _ node, hp]
    rintro rfl
    exact hnone hp
  refine ⟨?_, ?_, ?_⟩
  · show ((place ++ [name]) :: (t.nodes.filter _).map (·.1)).Nodup
    refine List.nodup_cons.mpr ⟨?_, h.distinct.sublist (List.filter_sublist.map _)⟩
    intro hmem
    obtain ⟨n, hn, hsame⟩ := List.mem_map.mp hmem
    exact of_decide_eq_true (List.mem_filter.mp hn).2 hsame
  · intro p name' hp
    rcases eq_or_ne (p ++ [name']) (place ++ [name]) with hsame | hother
    · obtain ⟨rfl, -⟩ := List.append_inj' hsame rfl
      exact hkept hplace
    · rw [node?_put_of_ne hother] at hp
      exact hkept (h.around p name' hp)
  · intro p name' hp
    rcases eq_or_ne (p ++ [name']) (place ++ [name]) with hsame | hother
    · obtain ⟨-, hlast⟩ := List.append_inj' hsame rfl
      exact List.singleton_inj.mp hlast ▸ hname
    · rw [node?_put_of_ne hother] at hp
      exact h.isName p name' hp

theorem put_of_resolve (h : t.IsSound) (hresolve : t.resolve path = .ok place)
    (hnone : t.node? place ≠ some .directory) (node : Node) : (t.put place node).IsSound := by
  rcases h.of_resolve hresolve with hdirectory | ⟨around, name, rfl, haround, hname⟩
  · exact absurd hdirectory hnone
  · exact h.put haround hname hnone node

theorem withDirectory (h : t.IsSound) (hok : t.withDirectory path = .ok t') : t'.IsSound := by
  unfold FileTree.withDirectory at hok
  cases hresolve : t.resolve path with
  | error fault =>
    rw [hresolve] at hok
    cases hok
  | ok place =>
    simp only [hresolve, bind, Except.bind] at hok
    split at hok
    · cases hok
    · rename_i hnone
      cases hok
      apply h.put_of_resolve hresolve
      intro hdirectory
      rw [hdirectory] at hnone
      exact hnone rfl

theorem withFile {content : Bytes} (h : t.IsSound) (hok : t.withFile path content = .ok t') :
    t'.IsSound := by
  unfold FileTree.withFile at hok
  cases hresolve : t.resolve path with
  | error fault =>
    rw [hresolve] at hok
    cases hok
  | ok place =>
    simp only [hresolve, bind, Except.bind] at hok
    split at hok
    · cases hok
    · rename_i hnone
      cases hok
      apply h.put_of_resolve hresolve
      intro hdirectory
      exact hnone (beq_iff_eq.mpr hdirectory)

/-! ## Removing directories -/

theorem withoutTree (h : t.IsSound) (path : Text) : (t.withoutTree path).2.IsSound := by
  -- What is still there was not lost, and neither was the directory around it.
  have hkept {p : Place} (hp : (t.withoutTree path).2.node? p ≠ none) :
      ¬t.Loses path p ∧ t.node? p ≠ none := by
    have hnot : ¬t.Loses path p := fun hloses => hp (node?_of_loses hloses)
    rw [node?_of_not_loses hnot] at hp
    exact ⟨hnot, hp⟩
  refine ⟨h.distinct.sublist ((nodes_withoutTree_sublist t path).map _), ?_, ?_⟩
  · intro place name hp
    obtain ⟨hnot, hp⟩ := hkept hp
    rw [node?_of_not_loses fun hloses => hnot (hloses.append [name])]
    exact h.around place name hp
  · intro place name hp
    exact h.isName place name (hkept hp).2

end IsSound

/-! ## Moving directories -/

/-- Where something is after a directory was moved. -/
def movedTo (old new p : Place) : Place :=
  if old.isPrefixOf p then new ++ p.drop old.length else p

/-- The tree after a directory was moved. -/
def moved (t : FileTree) (old new : Place) : FileTree :=
  { t with nodes := t.nodes.map fun n => (movedTo old new n.1, n.2) }

theorem movedTo_append (old new p : Place) : movedTo old new (old ++ p) = new ++ p := by
  rw [movedTo, if_pos (List.isPrefixOf_iff_prefix.mpr (List.prefix_append old p)),
    List.drop_left]

theorem movedTo_of_outside {old : Place} (h : ¬old <+: p) (new : Place) :
    movedTo old new p = p := by
  rw [movedTo, if_neg]
  rwa [List.isPrefixOf_iff_prefix]

theorem withMoved_eq_ok (h : t.withMoved source target = .ok t') :
    ∃ old new, t.resolve source = .ok old ∧ t.resolve target = .ok new ∧ t.node? old ≠ none ∧
      t.node? new = none ∧ t' = t.moved old new := by
  unfold withMoved at h
  cases hold : t.resolve source with
  | error fault =>
    rw [hold] at h
    cases h
  | ok old =>
    cases hnew : t.resolve target with
    | error fault =>
      rw [hold, hnew] at h
      cases h
    | ok new =>
      simp only [hold, hnew, bind, Except.bind] at h
      split at h
      · cases h
      · rename_i hsome
        split at h
        · cases h
        · rename_i hnone
          cases h
          refine ⟨old, new, rfl, rfl, by simpa using hsome, by simpa using hnone, ?_⟩
          rw [moved]
          congr 2
          funext n
          rw [movedTo]
          split <;> rfl

theorem lookup_map {f : Place → Place} (nodes : List (Place × Node))
    (h : ∀ n ∈ nodes, f n.1 = f p → n.1 = p) :
    (nodes.map fun n => (f n.1, n.2)).lookup (f p) = nodes.lookup p := by
  induction nodes with
  | nil => rfl
  | cons n nodes ih =>
    rw [List.map_cons, List.lookup_cons, List.lookup_cons, ih fun m hm => h m (.tail n hm)]
    by_cases hp : p = n.1
    · rw [hp, beq_self_eq_true, beq_self_eq_true]
    · rw [beq_eq_false_iff_ne.mpr hp, beq_eq_false_iff_ne.mpr]
      intro hsame
      exact hp (h n List.mem_cons_self hsame.symm).symm

namespace IsSound

section Move

variable {here : Place} (h : t.IsSound) (hnew : t.node? (here ++ [target]) = none)

include h hnew

/-- There is nothing where a directory is moved to. -/
theorem node?_new (rest : Place) : t.node? (here ++ [target] ++ rest) = none := by
  by_contra hrest
  rcases eq_or_ne rest [] with rfl | hne
  · rw [List.append_nil] at hrest
    exact hrest hnew
  · rw [h.directory_of_append hrest hne] at hnew
    cases hnew

/-- Different things are at different places after a directory was moved. -/
theorem movedTo_injective (hp : t.node? p ≠ none) (hq : t.node? q ≠ none)
    (hsame : movedTo (here ++ [source]) (here ++ [target]) p =
      movedTo (here ++ [source]) (here ++ [target]) q) : p = q := by
  by_cases hpold : here ++ [source] <+: p
  · obtain ⟨p, rfl⟩ := hpold
    rw [movedTo_append] at hsame
    by_cases hqold : here ++ [source] <+: q
    · obtain ⟨q, rfl⟩ := hqold
      rw [movedTo_append] at hsame
      rw [List.append_cancel_left hsame]
    · rw [movedTo_of_outside hqold] at hsame
      rw [← hsame, h.node?_new hnew] at hq
      exact absurd rfl hq
  · rw [movedTo_of_outside hpold] at hsame
    by_cases hqold : here ++ [source] <+: q
    · obtain ⟨q, rfl⟩ := hqold
      rw [movedTo_append] at hsame
      rw [hsame, h.node?_new hnew] at hp
      exact absurd rfl hp
    · rwa [movedTo_of_outside hqold] at hsame

/-- A directory is found where it was moved to. -/
theorem node?_moved (hq : t.node? q = some .directory) :
    (t.moved (here ++ [source]) (here ++ [target])).node?
      (movedTo (here ++ [source]) (here ++ [target]) q) = some .directory := by
  rcases eq_or_ne (movedTo (here ++ [source]) (here ++ [target]) q) [] with hroot | hmoved
  · rw [hroot]
    exact node?_nil _
  · have hne : q ≠ [] := by
      rintro rfl
      apply hmoved
      apply movedTo_of_outside
      rw [List.prefix_nil]
      exact List.append_ne_nil_of_right_ne_nil _ (List.cons_ne_nil _ _)
    rw [node?_of_ne hmoved, moved, lookup_map, ← node?_of_ne hne, hq]
    intro n hn hsame
    refine h.movedTo_injective hnew (node?_ne_none_of_mem hn) ?_ hsame
    rw [hq]
    exact Option.some_ne_none _

variable (hold : t.node? (here ++ [source]) ≠ none) (htarget : Path.IsName target)

include hold htarget

omit hnew in
/-- What there was keeps a name and a directory around it when a directory is moved. -/
theorem around_movedTo (hp : t.node? p ≠ none)
    (hsame : movedTo (here ++ [source]) (here ++ [target]) p = place ++ [name]) :
    Path.IsName name ∧ ∃ q, t.node? q = some .directory ∧
      movedTo (here ++ [source]) (here ++ [target]) q = place := by
  by_cases hinside : here ++ [source] <+: p
  · obtain ⟨rest, rfl⟩ := hinside
    rw [movedTo_append] at hsame
    rcases List.eq_nil_or_concat rest with rfl | ⟨rest, last, rfl⟩
    -- It is the directory that is moved.
    · rw [List.append_nil] at hsame
      obtain ⟨rfl, hlast⟩ := List.append_inj' hsame rfl
      refine ⟨List.singleton_inj.mp hlast ▸ htarget, here, h.around _ _ hold, ?_⟩
      apply movedTo_of_outside
      intro hbelow
      have hlength := hbelow.length_le
      rw [List.length_append, List.length_singleton] at hlength
      exact absurd hlength (Nat.not_succ_le_self _)
    -- It is inside the directory that is moved.
    · rw [List.concat_eq_append, ← List.append_assoc] at hsame hp
      obtain ⟨rfl, hlast⟩ := List.append_inj' hsame rfl
      cases List.singleton_inj.mp hlast
      exact ⟨h.isName _ _ hp, _, h.around _ _ hp, movedTo_append _ _ _⟩
  · rw [movedTo_of_outside hinside] at hsame
    subst hsame
    refine ⟨h.isName _ _ hp, place, h.around _ _ hp, ?_⟩
    apply movedTo_of_outside
    intro hbelow
    exact hinside (hbelow.trans (List.prefix_append _ _))

theorem moved : (t.moved (here ++ [source]) (here ++ [target])).IsSound := by
  have hfrom {place : Place} {name : Text}
      (hp : (t.moved (here ++ [source]) (here ++ [target])).node? (place ++ [name]) ≠ none) :
      Path.IsName name ∧ ∃ q, t.node? q = some .directory ∧
        movedTo (here ++ [source]) (here ++ [target]) q = place := by
    rw [node?_ne_none_iff (List.append_ne_nil_of_right_ne_nil _ (List.cons_ne_nil _ _)),
      FileTree.moved, List.map_map] at hp
    obtain ⟨n, hn, hsame⟩ := List.mem_map.mp hp
    exact h.around_movedTo hold htarget (node?_ne_none_of_mem hn) hsame
  refine ⟨?_, ?_, ?_⟩
  · have hkeys : ((t.nodes.map (·.1)).map
        (movedTo (here ++ [source]) (here ++ [target]))).Nodup := by
      refine h.distinct.map_on ?_
      intro p hp q hq hsame
      obtain ⟨n, hn, rfl⟩ := List.mem_map.mp hp
      obtain ⟨m, hm, rfl⟩ := List.mem_map.mp hq
      exact h.movedTo_injective hnew (node?_ne_none_of_mem hn) (node?_ne_none_of_mem hm) hsame
    rw [List.map_map] at hkeys
    rw [FileTree.moved, List.map_map]
    exact hkeys
  · intro place name hp
    obtain ⟨-, q, hq, rfl⟩ := hfrom hp
    exact h.node?_moved hnew hq
  · intro place name hp
    exact (hfrom hp).1

end Move

/-- **A directory gets another name** in the same directory. -/
theorem withMoved (h : t.IsSound) (hsource : Path.IsName source) (htarget : Path.IsName target)
    (hok : t.withMoved (Path.join base source) (Path.join base target) = .ok t') : t'.IsSound := by
  obtain ⟨old, new, hold, hnew, hsome, hnone, rfl⟩ := withMoved_eq_ok hok
  obtain ⟨-, rfl⟩ := (resolve_eq_ok (Path.join_ne_nil hsource)).mp hold
  obtain ⟨-, rfl⟩ := (resolve_eq_ok (Path.join_ne_nil htarget)).mp hnew
  rw [target_join hsource] at hsome ⊢
  rw [target_join htarget] at hnone ⊢
  exact h.moved hnone hsome htarget

end IsSound

/-! ## Names in directories -/

theorem mem_namesIn (t : FileTree) (place : Place) (name : Text) :
    name ∈ t.namesIn place ↔ t.node? (place ++ [name]) ≠ none := by
  rw [node?_ne_none_iff (List.append_ne_nil_of_right_ne_nil _ (List.cons_ne_nil _ _)), namesIn,
    List.mem_filterMap, List.mem_map]
  refine exists_congr fun n => and_congr_right fun _ => ?_
  constructor
  · intro hname
    split at hname
    · rename_i hplace
      rw [← hplace, List.dropLast_append_getLast? name hname]
    · cases hname
  · intro hplace
    rw [hplace, List.dropLast_concat, if_pos rfl, List.getLast?_concat]

/-- A directory has a name once. -/
theorem IsSound.nodup_namesIn (h : t.IsSound) (place : Place) : (t.namesIn place).Nodup := by
  have hkeys : t.namesIn place = (t.nodes.map (·.1)).filterMap fun p =>
      if p.dropLast = place then p.getLast? else none := by
    rw [List.filterMap_map]
    rfl
  rw [hkeys]
  apply h.distinct.filterMap
  intro p q name hp hq
  rw [Option.mem_def] at hp hq
  split at hp
  · rename_i hpplace
    split at hq
    · rename_i hqplace
      rw [← List.dropLast_append_getLast? name hp, ← List.dropLast_append_getLast? name hq, hpplace,
        hqplace]
    · cases hq
  · cases hp

end FileTree

/-! ## Programs -/

/-- A program leaves a sound tree sound. -/
def KeepsSound {α : Type} (x : StateM FileTree α) : Prop :=
  ∀ t : FileTree, t.IsSound → (x.run t).2.IsSound

namespace KeepsSound

variable {α β : Type} {x : StateM FileTree α} {f : α → StateM FileTree β}

theorem pure (a : α) : KeepsSound (Pure.pure a) := fun _ h => h

theorem bind (hx : KeepsSound x) (hf : ∀ a, KeepsSound (f a)) : KeepsSound (x >>= f) := by
  intro t h
  exact hf (x.run t).1 (x.run t).2 (hx t h)

theorem attempt {f : FileTree → Except FileFault FileTree}
    (hf : ∀ t t', t.IsSound → f t = .ok t' → t'.IsSound) : KeepsSound (FileTree.attempt f) := by
  intro t h
  show (FileTree.attempt f t).2.IsSound
  rw [FileTree.attempt]
  split
  · rename_i t' hok
    exact hf t t' h hok
  · exact h

theorem isDirectory (path : Text) :
    KeepsSound (FileAccess.isDirectory path : StateM FileTree Bool) := fun _ h => h

theorem makeDirectory (path : Text) :
    KeepsSound (FileAccess.makeDirectory path : StateM FileTree _) :=
  attempt fun _ _ h hok => h.withDirectory hok

theorem write (path : Text) (content : Bytes) :
    KeepsSound (FileAccess.write path content : StateM FileTree _) :=
  attempt fun _ _ h hok => h.withFile hok

theorem move {base source target : Text} (hsource : Path.IsName source)
    (htarget : Path.IsName target) :
    KeepsSound (FileAccess.move (Path.join base source) (Path.join base target) :
      StateM FileTree _) :=
  attempt fun _ _ h hok => h.withMoved hsource htarget hok

theorem removeTree (path : Text) :
    KeepsSound (FileAccess.removeTree path : StateM FileTree _) :=
  fun _ h => h.withoutTree path

theorem makeDirectories (path : Text) :
    KeepsSound (FileAccess.makeDirectories path : StateM FileTree _) := by
  rw [FileAccess.makeDirectories]
  generalize (Path.components path).reverse = reversed
  induction reversed with
  | nil => exact pure _
  | cons last around ih =>
    have hexisting (path : Text) (fault : FileFault) :
        KeepsSound (do
          if ← FileAccess.isDirectory path then return .ok () else return .error fault :
            StateM FileTree (Except FileFault Unit)) := by
      refine (isDirectory path).bind ?_
      rintro (_ | _) <;> exact pure _
    rw [FileAccess.makeAll]
    refine (makeDirectory _).bind ?_
    intro made
    split
    · exact pure _
    -- What is around it is made first.
    · refine ih.bind ?_
      intro madeAround
      split
      · exact pure _
      · refine (makeDirectory _).bind ?_
        intro madeThen
        split
        · exact pure _
        · exact hexisting _ _
    · exact hexisting _ _

end KeepsSound

end Bitext
