import Bitext.Proofs.Score.Order

/-!
# The selected candidate

A selection goes through the candidates in order and ends at the first score of 100 or more.
Nothing behind that candidate is scored, and nothing in front of it matters, however good it is.
Among candidates that are ranked already, it selects the first one.
-/

namespace Bitext

variable {α β : Type} [Score α] {score : β → α}

/-- The score is perfect. -/
abbrev IsPerfect (score : β → α) (c : β) : Prop := Score.le (Score.ofNat 100) (score c)

theorem selectFrom_append_cons {before after : List β} {c : β}
    (hbefore : ∀ d ∈ before, ¬IsPerfect score d) (hc : IsPerfect score c)
    (chosen? : Option (Selection α)) (index : Nat) :
    selectFrom score chosen? index (before ++ c :: after) =
      (some ⟨index + before.length, score c, true⟩, before.length + 1) := by
  induction before generalizing chosen? index with
  | nil =>
    rw [List.nil_append, selectFrom, if_pos hc]
    rfl
  | cons d before ih =>
    obtain ⟨hd, hbefore⟩ := List.forall_mem_cons.mp hbefore
    rw [List.cons_append, selectFrom, if_neg hd, ih hbefore, List.length_cons]
    simp only [Nat.add_assoc, Nat.add_comm 1]

/-- **The first perfect candidate is selected**, and no candidate behind it is scored. -/
theorem select_of_isPerfect {candidates : List β} (h : ∃ c ∈ candidates, IsPerfect score c) :
    ∃ before c after, candidates = before ++ c :: after ∧ IsPerfect score c ∧
      (∀ d ∈ before, ¬IsPerfect score d) ∧
      select score candidates = (some ⟨before.length, score c, true⟩, before.length + 1) := by
  have hfind : (candidates.find? fun c => Score.le (Score.ofNat 100) (score c)).isSome := by
    rw [List.find?_isSome]
    exact h
  obtain ⟨c, hfind⟩ := Option.isSome_iff_exists.mp hfind
  obtain ⟨hc, before, after, rfl, hbefore⟩ := List.find?_eq_some_iff_append.mp hfind
  have hnot : ∀ d ∈ before, ¬IsPerfect score d := by
    intro d hd
    have := hbefore d hd
    rw [Bool.not_eq_true'] at this
    exact Bool.eq_false_iff.mp this
  refine ⟨before, c, after, rfl, hc, hnot, ?_⟩
  rw [select, selectFrom_append_cons hnot hc, Nat.zero_add]

/-! ## Ranked candidates -/

section Ranked

variable [LawfulScore α] {rest : List β}

/-- A choice that no candidate exceeds is kept. -/
theorem selectFrom_of_not_lt {chosen : Selection α} (hnumber : Score.IsNumber chosen.score)
    (hchosen : ¬Score.le (Score.ofNat 100) chosen.score)
    (hrest : ∀ d ∈ rest, ¬Score.lt chosen.score (score d)) (index : Nat) :
    (selectFrom score (some chosen) index rest).1 = some chosen := by
  induction rest generalizing index with
  | nil => rfl
  | cons d rest ih =>
    obtain ⟨hd, hrest⟩ := List.forall_mem_cons.mp hrest
    have himperfect : ¬IsPerfect score d := by
      intro hperfect
      have hbelow := Score.le_of_not_lt hnumber (LawfulScore.le_right hperfect) hd
      exact hchosen (LawfulScore.le_trans hperfect hbelow)
    have hbest : Selection.best (some chosen) index (score d) = chosen := if_neg hd
    rw [selectFrom, if_neg himperfect, hbest]
    exact ih hrest (index + 1)

/-- **The first candidate is selected** if no other one exceeds it. -/
theorem select_cons_of_not_lt {c : β} (hnumber : Score.IsNumber (score c))
    (hrest : ∀ d ∈ rest, ¬Score.lt (score c) (score d)) :
    (select score (c :: rest)).1 =
      some ⟨0, score c, Score.le (Score.ofNat 100) (score c)⟩ := by
  rw [select, selectFrom]
  cases hperfect : Score.le (Score.ofNat 100) (score c) with
  | true => rfl
  | false => exact selectFrom_of_not_lt hnumber (Bool.eq_false_iff.mp hperfect) hrest 1

end Ranked

end Bitext
