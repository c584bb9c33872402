import Bitext.Archive.Packer
import Bitext.Proofs.Archive.Layout

/-!
# Packers that keep what they are given

A packer is faithful if the bytes that it emits hold the members it was told of, no matter into
which pieces their contents were cut.  The packer that lays members out as `encode` does is: what it
has emitted are the records of the members that are complete, and the rest is emitted at the end.

## Main definitions

* `Cut`: a member whose content comes in pieces.
* `Packer.IsFaithful`: what is said of packers.

## Main results

* `performAll?_append`: operations are packed one after another
* `finish_storing`: what is emitted at the end completes the archive
* `storing_isFaithful`: the packer of `encode` is faithful
-/

namespace Bitext.Archive

variable {σ : Type} {p : Packer σ} {os : List Operation} {z z' : σ} {b x : Bytes}

/-! ## Members in pieces -/

/-- A member whose content comes in pieces. -/
structure Cut where
  name : Text
  modified : FileTime
  pieces : List Bytes

namespace Cut

/-- The member as a whole. -/
def member (c : Cut) : Member := ⟨c.name, c.modified, c.pieces.flatten⟩

/-- What a packer is told of the member. -/
def operations (c : Cut) : List Operation := .start c.name c.modified :: c.pieces.map .append

end Cut

namespace Packer

/-- The state behind operations that all succeed, with everything that was emitted. -/
def performAll? (p : Packer σ) : List Operation → σ → Option (σ × Bytes)
  | [], z => some (z, [])
  | o :: os, z =>
    let packed := p.perform o z
    match packed.fault? with
    | some _ => none
    | none => (performAll? p os packed.state).map fun (z, b) => (z, packed.emitted ++ b)

/-- **A faithful packer**: of the archives that it accepts, with members of distinct names, it packs
each one, into whichever pieces the contents are cut, and its bytes hold the members. -/
def IsFaithful (p : Packer σ) (accepts : List Member → Prop) : Prop :=
  ∀ cuts : List Cut, (cuts.map (·.name)).Nodup → accepts (cuts.map (·.member)) →
    ∃ z b, p.performAll? (cuts.flatMap (·.operations)) p.initial = some (z, b) ∧
      (p.finish z).fault? = none ∧ Stores (b ++ (p.finish z).emitted) (cuts.map (·.member))

theorem performAll?_cons {o : Operation} (h : (p.perform o z).fault? = none)
    (os : List Operation) :
    p.performAll? (o :: os) z =
      (p.performAll? os (p.perform o z).state).map fun r =>
        (r.1, (p.perform o z).emitted ++ r.2) := by
  simp only [performAll?, h]

/-- What succeeds first, and what it leaves to the other operations. -/
theorem exists_of_performAll?_cons {o : Operation}
    (h : p.performAll? (o :: os) z = some (z', b)) :
    (p.perform o z).fault? = none ∧ ∃ x, p.performAll? os (p.perform o z).state = some (z', x) ∧
      b = (p.perform o z).emitted ++ x := by
  cases hfault : (p.perform o z).fault? with
  | some fault => simp only [performAll?, hfault, reduceCtorEq] at h
  | none =>
    rw [performAll?_cons hfault] at h
    obtain ⟨⟨z₁, x⟩, hrest, hresult⟩ := Option.map_eq_some_iff.mp h
    obtain ⟨rfl, rfl⟩ := Prod.mk.inj hresult
    exact ⟨rfl, x, hrest, rfl⟩

/-- **Operations are packed one after another.** -/
theorem performAll?_append (p : Packer σ) (os os' : List Operation) (z : σ) :
    p.performAll? (os ++ os') z = (p.performAll? os z).bind fun r =>
      (p.performAll? os' r.1).map fun r' => (r'.1, r.2 ++ r'.2) := by
  induction os generalizing z with
  | nil => simp [performAll?]
  | cons o os ih =>
    cases hfault : (p.perform o z).fault? with
    | some fault => simp only [List.cons_append, performAll?, hfault, Option.bind_none]
    | none =>
      rw [List.cons_append, performAll?_cons hfault, performAll?_cons hfault, ih]
      simp only [Option.map_bind, Option.bind_map, Option.map_map, Function.comp_def,
        List.append_assoc]

/-- Where all of them succeed, each part of them does. -/
theorem exists_of_performAll?_append {os os' : List Operation}
    (h : p.performAll? (os ++ os') z = some (z', b)) :
    ∃ z₁ x y, p.performAll? os z = some (z₁, x) ∧ p.performAll? os' z₁ = some (z', y) ∧
      b = x ++ y := by
  rw [performAll?_append] at h
  obtain ⟨⟨z₁, x⟩, hfirst, hrest⟩ := Option.bind_eq_some_iff.mp h
  obtain ⟨⟨z₂, y⟩, hsecond, hresult⟩ := Option.map_eq_some_iff.mp hrest
  obtain ⟨rfl, rfl⟩ := Prod.mk.inj hresult
  exact ⟨z₁, x, y, hfirst, hsecond, rfl⟩

end Packer

/-! ## Records in order -/

variable {s : Packing} {m : Member} {c : Cut} {cuts : List Cut}

/-- The records that have been emitted. -/
def Packing.records (s : Packing) : Bytes := s.finished.flatMap memberRecord

/-- When a member begins, the one before it is complete. -/
theorem records_begun (s : Packing) (m : Member) :
    (⟨s.members, some m⟩ : Packing).records =
      s.records ++ s.current?.toList.flatMap memberRecord := by
  rw [Packing.records, Packing.members, List.flatMap_append]
  rfl

/-- Content is emitted with its member. -/
theorem performAll?_appends (finished : List Member) (m : Member) (pieces : List Bytes) :
    storing.performAll? (pieces.map .append) ⟨finished, some m⟩ =
      some (⟨finished, some { m with content := m.content ++ pieces.flatten }⟩, []) := by
  induction pieces generalizing m with
  | nil =>
    rw [List.flatten_nil, List.append_nil]
    rfl
  | cons piece pieces ih =>
    rw [List.map_cons, Packer.performAll?_cons rfl]
    simp only [storing] at ih ⊢
    rw [ih, List.flatten_cons, ← List.append_assoc]
    rfl

/-- A member begins when the one before it is emitted. -/
theorem performAll?_operations (hnew : c.name ∉ s.members.map (·.name)) :
    storing.performAll? c.operations s =
      some (⟨s.members, some c.member⟩, s.current?.toList.flatMap memberRecord) := by
  have hany : s.members.any (·.name = c.name) = false := by
    rw [List.any_eq_false]
    intro m hm hname
    exact hnew (List.mem_map.mpr ⟨m, hm, of_decide_eq_true hname⟩)
  have hstart : storing.perform (.start c.name c.modified) s =
      ⟨⟨s.members, some ⟨c.name, c.modified, []⟩⟩, s.current?.toList.flatMap memberRecord,
        none⟩ := by
    simp only [storing, hany, Bool.false_eq_true, if_false]
  have hfault := congrArg Packed.fault? hstart
  rw [Cut.operations, Packer.performAll?_cons hfault, hstart, performAll?_appends]
  simp [Cut.member]

/-- **What has been emitted are the records of the complete members.** -/
theorem performAll?_storing (hnames : (s.members.map (·.name) ++ cuts.map (·.name)).Nodup) :
    ∃ s' b, storing.performAll? (cuts.flatMap (·.operations)) s = some (s', b) ∧
      s'.members = s.members ++ cuts.map (·.member) ∧ s'.records = s.records ++ b := by
  induction cuts generalizing s with
  | nil => exact ⟨s, [], rfl, (List.append_nil _).symm, (List.append_nil _).symm⟩
  | cons c cuts ih =>
    have hsplit := hnames
    rw [List.map_cons, List.nodup_append] at hsplit
    have hnew : c.name ∉ s.members.map (·.name) := fun hmem =>
      hsplit.2.2 _ hmem _ List.mem_cons_self rfl
    have hbegun : (⟨s.members, some c.member⟩ : Packing).members = s.members ++ [c.member] := rfl
    obtain ⟨s', b, hpacked, hmembers, hrecords⟩ := ih (s := ⟨s.members, some c.member⟩) (by
      rw [hbegun, List.map_append, List.append_assoc]
      exact hnames)
    refine ⟨s', s.current?.toList.flatMap memberRecord ++ b, ?_, ?_, ?_⟩
    · rw [List.flatMap_cons, Packer.performAll?_append, performAll?_operations hnew,
        Option.bind_some, hpacked, Option.map_some]
    · rw [hmembers, hbegun, List.append_assoc, List.map_cons, List.singleton_append]
    · rw [hrecords, records_begun, List.append_assoc]

/-- **What is emitted at the end completes the archive.** -/
theorem finish_storing (s : Packing) :
    s.records ++ (storing.finish s).emitted = encode s.members := by
  have hencode : ∃ rest, encode s.members = s.records ++ rest := by
    rw [encode_eq, Packing.members, List.flatMap_append, List.append_assoc]
    exact ⟨_, rfl⟩
  obtain ⟨rest, hrest⟩ := hencode
  have hemitted : (storing.finish s).emitted = (encode s.members).drop s.records.length := rfl
  rw [hemitted, hrest, List.drop_left]

/-- **The packer of `encode` is faithful**, as far as members fit. -/
theorem storing_isFaithful : storing.IsFaithful Fits := by
  intro cuts hnames hfits
  have hall : (storing.initial.members.map (·.name) ++ cuts.map (·.name)).Nodup := hnames
  obtain ⟨s, b, hpacked, hmembers, hrecords⟩ := performAll?_storing hall
  have hemitted : b = s.records := hrecords.symm
  have hheld : s.members = cuts.map (·.member) := hmembers
  refine ⟨s, b, hpacked, rfl, ?_⟩
  rw [hemitted, finish_storing, hheld]
  exact stores_encode hfits

end Bitext.Archive
