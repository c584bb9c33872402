import Bitext.Memory.Basic
import Mathlib.Data.List.Basic

/-!
# Scans of a memory that grows

A scan is a cursor into a memory to which units may be added at any time, and any number of scans
may be open at once.  What keeps them right is that a memory only grows at its end, so the units
that a scan has passed stay where they are.  A scan is therefore always at the end of some first
part of the memory, and has yielded what it selects of that part.  That it has come to the end of
the whole memory does not close it: units that are added later are behind its place.

## Main definitions

* `Memory.selection`: what a scan selects of stored units.
* `SharedMemory`, `SharedMemory.run`: a memory with its open scans, and what is done to them.
* `OpenScan.HasPassed`: the place of a scan and what it has yielded.

## Main results

* `exists_advance`: what a cursor passes and yields
* `hasPassed_step`, `hasPassed_run`: whatever is done, a scan has passed a first part of the memory
* `yielded_run`: scans lose nothing and repeat nothing
-/

namespace Bitext

/-! ## What a scan selects -/

namespace Memory

variable {m : Memory} {pair : LanguagePair} {filters : SearchFilters}

/-- The key of the unit occurs more than once among the units of the pair that the filters
accept. -/
def isRepeated (m : Memory) (pair : LanguagePair) (filters : SearchFilters) (v : TranslationUnit) :
    Bool :=
  2 ≤ (m.matching pair filters).countP (·.contentKey == v.contentKey)

/-- What a scan that is opened on the memory selects of stored units, whenever they are stored:
those of the pair that the filters accept and, if only duplicates are wanted, whose key is repeated
in the memory at that time. -/
def selection (m : Memory) (pair : LanguagePair) (filters : SearchFilters)
    (units : List TranslationUnit) : List TranslationUnit :=
  (units.filterMap (·.oriented? pair)).filter fun v =>
    filters.accepts v && (!filters.duplicatesOnly || m.isRepeated pair filters v)

theorem selection_append (before after : List TranslationUnit) :
    m.selection pair filters (before ++ after) =
      m.selection pair filters before ++ m.selection pair filters after := by
  rw [selection, List.filterMap_append, List.filter_append]
  rfl

theorem mem_repeatedKeys {units : List TranslationUnit} {key : Text} :
    key ∈ repeatedKeys units ↔ 2 ≤ units.countP (·.contentKey == key) := by
  have hcount : (units.map (·.contentKey)).count key = units.countP (·.contentKey == key) :=
    List.countP_map
  rw [repeatedKeys, List.mem_eraseDups, List.mem_filter, decide_eq_true_eq, hcount,
    and_iff_right_iff_imp]
  intro htwice
  rw [← hcount] at htwice
  exact List.count_pos_iff.mp (by omega)

/-- A cursor yields the selection, wherever it stands. -/
theorem filterMap_yield? (m : Memory) (pair : LanguagePair) (filters : SearchFilters)
    (position : Nat) (units : List TranslationUnit) :
    units.filterMap { m.openScan pair filters with position := position }.yield? =
      m.selection pair filters units := by
  rw [selection, List.filter_filterMap]
  refine List.filterMap_congr fun u _ => congrArg (Option.filter · _) (funext fun v => ?_)
  simp only [openScan, isRepeated]
  cases filters.duplicatesOnly with
  | false => rfl
  | true =>
    simp only [if_true, Option.all_some, Bool.not_true, Bool.false_or]
    refine congrArg (filters.accepts v && ·) (Bool.eq_iff_iff.mpr ?_)
    rw [List.contains_iff_mem, mem_repeatedKeys, decide_eq_true_eq]

theorem scan_eq_filter : m.scan pair filters =
    (m.matching pair filters).filter fun v =>
      !filters.duplicatesOnly || m.isRepeated pair filters v := by
  have hscan : m.scan pair filters = m.selection pair filters m.units :=
    filterMap_yield? m pair filters 0 m.units
  rw [hscan, selection, matching, List.filter_filter]
  exact List.filter_congr fun v _ => Bool.and_comm _ _

end Memory

/-! ## Cursors -/

/-- **What a cursor passes and yields**: it stops behind the last unit that it was asked for, and
otherwise at the end. -/
theorem ScanCursor.exists_advance (s : ScanCursor) (n : Nat) (units : List TranslationUnit) :
    ∃ passed waiting, units = passed ++ waiting ∧
      s.advance n units = (passed.filterMap s.yield?, passed.length) ∧
      (passed.filterMap s.yield?).length ≤ n ∧
      ((passed.filterMap s.yield?).length < n → waiting = []) := by
  fun_induction s.advance n units with
  | case1 units =>
    exact ⟨[], units, rfl, rfl, Nat.le_refl 0, fun hlt => absurd hlt (Nat.lt_irrefl 0)⟩
  | case2 n => exact ⟨[], [], rfl, rfl, Nat.zero_le _, fun _ => rfl⟩
  | case3 n u rest v hyield vs passed hadvance ih =>
    obtain ⟨front, waiting, rfl, heq, hle, hend⟩ := ih
    rw [hadvance] at heq
    obtain ⟨rfl, rfl⟩ := Prod.mk.inj heq
    refine ⟨u :: front, waiting, rfl, ?_, ?_, ?_⟩ <;> rw [List.filterMap_cons_some hyield]
    · rfl
    · exact Nat.succ_le_succ hle
    · exact fun hlt => hend (Nat.lt_of_succ_lt_succ hlt)
  | case4 n u rest hyield vs passed hadvance ih =>
    obtain ⟨front, waiting, rfl, heq, hle, hend⟩ := ih
    rw [hadvance] at heq
    obtain ⟨rfl, rfl⟩ := Prod.mk.inj heq
    refine ⟨u :: front, waiting, rfl, ?_, ?_, ?_⟩ <;> rw [List.filterMap_cons_none hyield]
    · rfl
    · exact hle
    · exact hend

/-! ## Shared memories -/

/-- An open scan with all that it has yielded. -/
structure OpenScan where
  cursor : ScanCursor
  yielded : List TranslationUnit

/-- The scan after the next units, at most `n`, were pulled from it. -/
def OpenScan.pull (m : Memory) (n : Nat) (scan : OpenScan) : OpenScan :=
  let (units, cursor) := m.pull scan.cursor n
  ⟨cursor, scan.yielded ++ units⟩

/-- A memory with the scans that are open on it, in the order of opening. -/
structure SharedMemory where
  memory : Memory
  scans : List OpenScan

namespace SharedMemory

/-- What is done to a shared memory.  Scans are told apart by their numbers. -/
inductive Action where
  | insert (batch : List TranslationUnit)
  | openScan (pair : LanguagePair) (filters : SearchFilters)
  | pull (scan n : Nat)

def step (s : SharedMemory) : Action → SharedMemory
  | .insert batch => { s with memory := s.memory.insert batch }
  | .openScan pair filters => { s with scans := s.scans ++ [⟨s.memory.openScan pair filters, []⟩] }
  | .pull i n => { s with scans := s.scans.modify i (·.pull s.memory n) }

/-- Any number of actions, one after another. -/
def run (s : SharedMemory) (actions : List Action) : SharedMemory := actions.foldl step s

end SharedMemory

/-! ## The place of a scan -/

/-- The scan was opened on a memory and has passed the stored units `passed`: it stands behind them
and has yielded what it selects of them. -/
structure OpenScan.HasPassed (opened : Memory) (pair : LanguagePair) (filters : SearchFilters)
    (passed : List TranslationUnit) (scan : OpenScan) : Prop where
  cursor_eq : scan.cursor = { opened.openScan pair filters with position := passed.length }
  yielded_eq : scan.yielded = opened.selection pair filters passed

section Places

variable {m opened : Memory} {pair : LanguagePair} {filters : SearchFilters} {scan : OpenScan}
  {passed waiting : List TranslationUnit} {s : SharedMemory} {i : Nat}

/-- **What a pull does**: the scan passes some of the units that are waiting, all of them if fewer
units are yielded than were wanted. -/
theorem OpenScan.HasPassed.pull (h : scan.HasPassed opened pair filters passed)
    (hunits : m.units = passed ++ waiting) (n : Nat) :
    ∃ more rest, waiting = more ++ rest ∧
      (scan.pull m n).HasPassed opened pair filters (passed ++ more) ∧
      (m.pull scan.cursor n).1 = opened.selection pair filters more ∧
      (m.pull scan.cursor n).1.length ≤ n ∧
      ((m.pull scan.cursor n).1.length < n → rest = []) := by
  have hdrop : m.units.drop scan.cursor.position = waiting := by
    rw [hunits, h.cursor_eq]
    exact List.drop_left
  obtain ⟨more, rest, rfl, hadvance, hle, hend⟩ := scan.cursor.exists_advance n waiting
  have hpull : m.pull scan.cursor n =
      (more.filterMap scan.cursor.yield?,
        { scan.cursor with position := scan.cursor.position + more.length }) := by
    rw [Memory.pull, hdrop, hadvance]
  have hyield : more.filterMap scan.cursor.yield? = opened.selection pair filters more := by
    rw [h.cursor_eq, Memory.filterMap_yield?]
  rw [hyield] at hpull hle hend
  refine ⟨more, rest, rfl, ⟨?_, ?_⟩, by rw [hpull], by rw [hpull]; exact hle,
    by rw [hpull]; exact hend⟩
  · rw [OpenScan.pull, hpull, h.cursor_eq, List.length_append]
  · rw [OpenScan.pull, hpull, h.yielded_eq, Memory.selection_append]

/-- A scan that has just been opened has passed nothing. -/
theorem SharedMemory.hasPassed_openScan (s : SharedMemory) (pair : LanguagePair)
    (filters : SearchFilters) :
    ∃ scan, (s.step (.openScan pair filters)).scans[s.scans.length]? = some scan ∧
      scan.HasPassed s.memory pair filters [] :=
  ⟨⟨s.memory.openScan pair filters, []⟩, by simp [step], rfl, rfl⟩

namespace SharedMemory

theorem scans_step_pull (hscan : s.scans[i]? = some scan) (n : Nat) :
    (s.step (.pull i n)).scans[i]? = some (scan.pull s.memory n) := by
  simp only [step, List.getElem?_modify_eq, hscan, Option.map_eq_map, Option.map_some]

/-- **Whatever is done to the memory and its scans**, a scan has passed a first part of the memory,
and only ever passes more. -/
theorem hasPassed_step (hscan : s.scans[i]? = some scan)
    (h : scan.HasPassed opened pair filters passed) (hunits : s.memory.units = passed ++ waiting)
    (action : Action) :
    ∃ scan' more waiting', (s.step action).scans[i]? = some scan' ∧
      scan'.HasPassed opened pair filters (passed ++ more) ∧
      (s.step action).memory.units = passed ++ more ++ waiting' := by
  have hsame : scan.HasPassed opened pair filters (passed ++ []) := by
    rw [List.append_nil]
    exact h
  cases action with
  | insert batch =>
    refine ⟨scan, [], waiting ++ batch.filter (·.isUsable), hscan, hsame, ?_⟩
    rw [step, Memory.insert, hunits, List.append_nil, List.append_assoc]
  | openScan otherPair otherFilters =>
    refine ⟨scan, [], waiting, ?_, hsame, by rw [List.append_nil]; exact hunits⟩
    exact List.getElem?_append_left (List.getElem?_eq_some_iff.mp hscan).1 ▸ hscan
  | pull j n =>
    by_cases hj : j = i
    · subst hj
      obtain ⟨more, rest, rfl, hpulled, -⟩ := h.pull hunits n
      refine ⟨scan.pull s.memory n, more, rest, scans_step_pull hscan n, hpulled, ?_⟩
      rw [List.append_assoc]
      exact hunits
    · refine ⟨scan, [], waiting, ?_, hsame, by rw [List.append_nil]; exact hunits⟩
      simp only [step, List.getElem?_modify_ne _ _ hj, hscan]

/-- A run does the same, by induction on the actions. -/
theorem hasPassed_run (hscan : s.scans[i]? = some scan)
    (h : scan.HasPassed opened pair filters passed) (hunits : s.memory.units = passed ++ waiting)
    (actions : List Action) :
    ∃ scan' more waiting', (s.run actions).scans[i]? = some scan' ∧
      scan'.HasPassed opened pair filters (passed ++ more) ∧
      (s.run actions).memory.units = passed ++ more ++ waiting' := by
  induction actions generalizing s scan passed waiting with
  | nil => exact ⟨scan, [], waiting, hscan, by rwa [List.append_nil], by rwa [List.append_nil]⟩
  | cons action actions ih =>
    obtain ⟨scan₁, more₁, waiting₁, hscan₁, h₁, hunits₁⟩ := hasPassed_step hscan h hunits action
    obtain ⟨scan₂, more₂, waiting₂, hscan₂, h₂, hunits₂⟩ := ih hscan₁ h₁ hunits₁
    refine ⟨scan₂, more₁ ++ more₂, waiting₂, hscan₂, ?_, ?_⟩
    · rwa [← List.append_assoc]
    · rwa [← List.append_assoc]

/-! ## Nothing lost, nothing repeated -/

/-- A pull yields what the scan selects of the units that are waiting, as many as are wanted. -/
theorem pull_eq_take (h : scan.HasPassed opened pair filters passed)
    (hunits : m.units = passed ++ waiting) (n : Nat) :
    (m.pull scan.cursor n).1 = (opened.selection pair filters waiting).take n := by
  obtain ⟨more, rest, rfl, -, hout, hle, hend⟩ := h.pull hunits n
  rw [Memory.selection_append, ← hout]
  rcases Nat.lt_or_eq_of_le hle with hlt | heq
  · rw [hend hlt, Memory.selection, List.filterMap_nil, List.filter_nil, List.append_nil,
      List.take_of_length_le hle]
  · exact (List.take_left' heq).symm

/-- A pull that yields less than was wanted has brought the scan to the end of the memory. -/
theorem hasPassed_pull_of_fewer (h : scan.HasPassed opened pair filters passed)
    (hunits : m.units = passed ++ waiting) {n : Nat}
    (hfewer : (m.pull scan.cursor n).1.length < n) :
    (scan.pull m n).HasPassed opened pair filters m.units := by
  obtain ⟨more, rest, rfl, hpulled, -, -, hend⟩ := h.pull hunits n
  rw [hend hfewer, List.append_nil] at hunits
  rwa [hunits]

/-- **Scans lose nothing and repeat nothing.**  A scan is opened on a shared memory, and then
anything is done to the memory and its scans.  What the scan has yielded by then is what it selects
of the first stored units, and a pull yields what it selects of the others, as many as are wanted.
If these are fewer than wanted, it has yielded what it selects of all stored units.  Even so it goes
on: whatever is done afterwards, it adds what it selects of the units that were stored next. -/
theorem yielded_run (s : SharedMemory) (pair : LanguagePair) (filters : SearchFilters)
    (actions : List Action) :
    let select := s.memory.selection pair filters
    let i := s.scans.length
    let now := (s.step (.openScan pair filters)).run actions
    ∃ scan passed waiting, now.scans[i]? = some scan ∧ now.memory.units = passed ++ waiting ∧
      scan.yielded = select passed ∧
      ∀ n, (now.memory.pull scan.cursor n).1 = (select waiting).take n ∧
        ((now.memory.pull scan.cursor n).1.length < n →
          (∃ ended, (now.step (.pull i n)).scans[i]? = some ended ∧
            ended.yielded = select now.memory.units) ∧
          ∀ later, ∃ resumed more, ((now.step (.pull i n)).run later).scans[i]? = some resumed ∧
            now.memory.units ++ more <+: ((now.step (.pull i n)).run later).memory.units ∧
            resumed.yielded = select now.memory.units ++ select more) := by
  intro select i now
  obtain ⟨fresh, hfresh, hstart⟩ := s.hasPassed_openScan pair filters
  have hnothing : (s.step (.openScan pair filters)).memory.units = [] ++ s.memory.units := rfl
  obtain ⟨scan, passed, waiting, hscan, hpassed, hunits⟩ :=
    hasPassed_run hfresh hstart hnothing actions
  rw [List.nil_append] at hpassed hunits
  refine ⟨scan, passed, waiting, hscan, hunits, hpassed.yielded_eq, fun n =>
    ⟨pull_eq_take hpassed hunits n, fun hfewer => ?_⟩⟩
  have hended := scans_step_pull hscan n
  have hall := hasPassed_pull_of_fewer hpassed hunits hfewer
  refine ⟨⟨_, hended, hall.yielded_eq⟩, fun later => ?_⟩
  have hnone : (now.step (.pull i n)).memory.units = now.memory.units ++ [] :=
    (List.append_nil _).symm
  obtain ⟨resumed, more, rest, hresumed, hmore, hstored⟩ := hasPassed_run hended hall hnone later
  refine ⟨resumed, more, hresumed, ⟨rest, hstored.symm⟩, ?_⟩
  rw [hmore.yielded_eq, Memory.selection_append]

end SharedMemory

end Places

end Bitext
