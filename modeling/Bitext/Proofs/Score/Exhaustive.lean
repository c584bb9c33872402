import Bitext.Proofs.Score.Selection

/-!
# Selection without scoring everything

A search that ends at the first perfect candidate selects what a search through all of them would
select, unless a score can be above 100.  Adjusted scores cannot.

A score function may have effects, and then it matters which candidates it is called with.  The
search is run here with a score function that records its calls.

## Main definitions

* `IsFirstMaximum`: the first of the candidates with the greatest score, at its place.
* `firstMaximum?`: its computation from the scores of all candidates.
* `selectM`: the search with a score function that has effects.

## Main results

* `select_spec`: what is selected, and which candidates are scored for it
* `bestMatch?_eq_firstMaximum?`: the best match is the first maximum of all adjusted scores
-/

namespace Bitext

section Selecting

variable {α β : Type} [Score α] {score : β → α}

/-! ## The calls of the score function -/

section Calls

variable {m : Type → Type} [Monad m]

/-- Goes on with the candidates from place `index` on, with a score function that has effects. -/
def selectFromM (score : β → m α) (chosen? : Option (Selection α)) (index : Nat) :
    List β → m (Option (Selection α))
  | [] => pure chosen?
  | c :: rest => do
    let s ← score c
    if Score.le (Score.ofNat 100) s then return some ⟨index, s, true⟩
    else selectFromM score (some (Selection.best chosen? index s)) (index + 1) rest

/-- The best candidate under a score function that has effects. -/
def selectM (score : β → m α) (candidates : List β) : m (Option (Selection α)) :=
  selectFromM score none 0 candidates

end Calls

/-- The score function that records what it is called with. -/
def recording (score : β → α) (c : β) : StateM (List β) α := do
  modify (· ++ [c])
  return score c

/-- The candidates that are scored are the first ones, in order, and none of them twice. -/
theorem selectFromM_recording (candidates : List β) (chosen? : Option (Selection α)) (index : Nat)
    (calls : List β) :
    (selectFromM (recording score) chosen? index candidates).run calls =
      ((selectFrom score chosen? index candidates).1,
        calls ++ candidates.take (selectFrom score chosen? index candidates).2) := by
  induction candidates generalizing chosen? index calls with
  | nil => rw [selectFrom, List.take_nil, List.append_nil]; rfl
  | cons c rest ih =>
    have hrun : (selectFromM (recording score) chosen? index (c :: rest)).run calls =
        (if Score.le (Score.ofNat 100) (score c) then return some ⟨index, score c, true⟩
        else selectFromM (recording score) (some (Selection.best chosen? index (score c)))
          (index + 1) rest : StateM (List β) (Option (Selection α))).run (calls ++ [c]) := rfl
    rw [hrun, selectFrom]
    split
    · rfl
    · rw [ih]
      simp only [List.take_succ_cons, List.append_assoc, List.singleton_append]

theorem selectM_recording (candidates : List β) :
    (selectM (recording score) candidates).run [] =
      ((select score candidates).1, candidates.take (select score candidates).2) :=
  selectFromM_recording candidates none 0 []

/-- Without a perfect candidate all of them are scored. -/
theorem selectFrom_scored {candidates : List β} (h : ∀ c ∈ candidates, ¬IsPerfect score c)
    (chosen? : Option (Selection α)) (index : Nat) :
    (selectFrom score chosen? index candidates).2 = candidates.length := by
  induction candidates generalizing chosen? index with
  | nil => rfl
  | cons c rest ih =>
    obtain ⟨hc, hrest⟩ := List.forall_mem_cons.mp h
    rw [selectFrom, if_neg hc, List.length_cons]
    exact congrArg (· + 1) (ih hrest _ _)

/-! ## The first maximum -/

/-- The candidate stands at the place, everything in front of it has a lower score and nothing
behind it a greater one. -/
def IsFirstMaximum (score : β → α) (candidates : List β) (index : Nat) (c : β) : Prop :=
  ∃ before after, candidates = before ++ c :: after ∧ before.length = index ∧
    (∀ d ∈ before, Score.lt (score d) (score c)) ∧ ∀ d ∈ after, Score.le (score d) (score c)

/-- The first candidate with the greatest score and its place, computed from all scores. -/
def firstMaximum? (score : β → α) : List β → Option (Nat × β)
  | [] => none
  | c :: rest =>
    match firstMaximum? score rest with
    | none => some (0, c)
    | some (index, d) =>
      if Score.lt (score c) (score d) then some (index + 1, d) else some (0, c)

theorem mem_of_firstMaximum? {candidates : List β} {index : Nat} {c : β}
    (h : firstMaximum? score candidates = some (index, c)) : c ∈ candidates := by
  induction candidates generalizing index with
  | nil => nomatch h
  | cons b rest ih =>
    rw [firstMaximum?] at h
    split at h
    · cases h
      exact List.mem_cons_self
    · rename_i hrest
      split at h
      · cases h
        exact List.mem_cons_of_mem b (ih hrest)
      · cases h
        exact List.mem_cons_self

variable {candidates : List β} {index : Nat} {c : β}

namespace IsFirstMaximum

/-- A lower score in front changes its place only. -/
theorem cons_of_lt {b : β} (h : IsFirstMaximum score candidates index c)
    (hb : Score.lt (score b) (score c)) :
    IsFirstMaximum score (b :: candidates) (index + 1) c := by
  obtain ⟨before, after, rfl, rfl, hbefore, hafter⟩ := h
  exact ⟨b :: before, after, rfl, List.length_cons, List.forall_mem_cons.mpr ⟨hb, hbefore⟩, hafter⟩

variable [LawfulScore α]

/-- The computation finds it. -/
theorem firstMaximum?_eq (h : IsFirstMaximum score candidates index c) :
    firstMaximum? score candidates = some (index, c) := by
  obtain ⟨before, after, rfl, rfl, hbefore, hafter⟩ := h
  induction before with
  | nil =>
    rw [List.nil_append, firstMaximum?]
    split
    · rfl
    · rename_i d hd
      exact if_neg (Score.not_lt_of_le (hafter d (mem_of_firstMaximum? hd)))
  | cons b before ih =>
    obtain ⟨hb, hbefore⟩ := List.forall_mem_cons.mp hbefore
    rw [List.cons_append, firstMaximum?, ih hbefore]
    exact if_pos hb

/-- A score in front that it does not exceed takes its place. -/
theorem cons_of_le {b : β} (h : IsFirstMaximum score candidates index c)
    (hb : Score.le (score c) (score b)) : IsFirstMaximum score (b :: candidates) 0 b := by
  obtain ⟨before, after, rfl, -, hbefore, hafter⟩ := h
  refine ⟨[], _, rfl, rfl, nofun, ?_⟩
  intro d hd
  rcases List.mem_append.mp hd with hd | hd
  · exact LawfulScore.le_trans (Score.le_of_lt (hbefore d hd)) hb
  · rcases List.mem_cons.mp hd with rfl | hd
    · exact hb
    · exact LawfulScore.le_trans (hafter d hd) hb

end IsFirstMaximum

variable [LawfulScore α] (hnumber : ∀ c ∈ candidates, Score.IsNumber (score c))

include hnumber in
theorem exists_isFirstMaximum (hcandidates : candidates ≠ []) :
    ∃ index c, IsFirstMaximum score candidates index c := by
  induction candidates with
  | nil => exact absurd rfl hcandidates
  | cons b rest ih =>
    obtain ⟨hb, hnumber⟩ := List.forall_mem_cons.mp hnumber
    by_cases hrest : rest = []
    · exact ⟨0, b, [], rest, rfl, rfl, nofun, by rw [hrest]; nofun⟩
    obtain ⟨index, c, h⟩ := ih hnumber hrest
    -- In a tie the candidate in front is the first one.
    by_cases hlt : Score.lt (score b) (score c)
    · exact ⟨index + 1, c, h.cons_of_lt hlt⟩
    · have hc := hnumber c (mem_of_firstMaximum? h.firstMaximum?_eq)
      exact ⟨0, b, h.cons_of_le (Score.le_of_not_lt hb hc hlt)⟩

include hnumber in
theorem firstMaximum?_eq_some_iff :
    firstMaximum? score candidates = some (index, c) ↔ IsFirstMaximum score candidates index c := by
  refine ⟨?_, IsFirstMaximum.firstMaximum?_eq⟩
  intro h
  have hcandidates : candidates ≠ [] := by
    rintro rfl
    nomatch h
  obtain ⟨place, d, hd⟩ := exists_isFirstMaximum hnumber hcandidates
  rw [hd.firstMaximum?_eq] at h
  cases h
  exact hd

/-! ## What is selected -/

/-- A candidate that exceeds the choice and everything in front of it is chosen in its turn, and
kept if nothing behind it exceeds it. -/
theorem selectFrom_append_of_lt {before after : List β}
    (hperfect : ∀ d ∈ before ++ c :: after, ¬IsPerfect score d)
    (hbefore : ∀ d ∈ before, Score.lt (score d) (score c)) (hc : Score.IsNumber (score c))
    (hafter : ∀ d ∈ after, ¬Score.lt (score c) (score d)) (chosen? : Option (Selection α))
    (hchosen : ∀ chosen ∈ chosen?, Score.lt chosen.score (score c)) (index : Nat) :
    (selectFrom score chosen? index (before ++ c :: after)).1 =
      some ⟨index + before.length, score c, false⟩ := by
  -- Whatever is chosen on the way has a score below that of the candidate, and that is all the
  -- candidate needs in its turn.
  induction before generalizing chosen? index with
  | nil =>
    have himperfect := hperfect c List.mem_cons_self
    have hbest : Selection.best chosen? index (score c) = ⟨index, score c, false⟩ := by
      cases chosen? with
      | none => rfl
      | some chosen => exact if_pos (hchosen chosen rfl)
    have hkept : (selectFrom score (some ⟨index, score c, false⟩) (index + 1) after).1 =
        some ⟨index, score c, false⟩ := selectFrom_of_not_lt hc himperfect hafter (index + 1)
    rw [List.nil_append, selectFrom, if_neg himperfect, hbest]
    exact hkept
  | cons b before ih =>
    obtain ⟨hb, hperfect⟩ := List.forall_mem_cons.mp hperfect
    obtain ⟨hlt, hbefore⟩ := List.forall_mem_cons.mp hbefore
    have hbest : ∀ chosen ∈ some (Selection.best chosen? index (score b)),
        Score.lt chosen.score (score c) := by
      rintro chosen ⟨⟩
      cases chosen? with
      | none => exact hlt
      | some chosen =>
        rw [Selection.best]
        split
        · exact hlt
        · exact hchosen chosen rfl
    rw [List.cons_append, selectFrom, if_neg hb, List.length_cons, ← Nat.add_assoc,
      Nat.add_right_comm]
    exact ih hperfect hbefore _ hbest (index + 1)

theorem IsFirstMaximum.select_eq (h : IsFirstMaximum score candidates index c)
    (hc : Score.IsNumber (score c)) (hperfect : ∀ d ∈ candidates, ¬IsPerfect score d) :
    select score candidates = (some ⟨index, score c, false⟩, candidates.length) := by
  have hscored := selectFrom_scored hperfect none 0
  obtain ⟨before, after, rfl, rfl, hbefore, hafter⟩ := h
  have hselected := selectFrom_append_of_lt hperfect hbefore hc
    (fun d hd => Score.not_lt_of_le (hafter d hd)) none nofun 0
  rw [Nat.zero_add] at hselected
  exact Prod.ext hselected hscored

include hnumber in
theorem exists_select_of_not_isPerfect (hcandidates : candidates ≠ [])
    (hperfect : ∀ c ∈ candidates, ¬IsPerfect score c) :
    ∃ index c, IsFirstMaximum score candidates index c ∧
      select score candidates = (some ⟨index, score c, false⟩, candidates.length) := by
  obtain ⟨index, c, h⟩ := exists_isFirstMaximum hnumber hcandidates
  have hc := hnumber c (mem_of_firstMaximum? h.firstMaximum?_eq)
  exact ⟨index, c, h, h.select_eq hc hperfect⟩

include hnumber in
theorem select_eq_none_iff : (select score candidates).1 = none ↔ candidates = [] := by
  constructor
  · intro hnone
    by_contra hcandidates
    by_cases hperfect : ∃ c ∈ candidates, IsPerfect score c
    · obtain ⟨_, _, _, _, _, _, hselect⟩ := select_of_isPerfect hperfect
      rw [hselect] at hnone
      nomatch hnone
    · have hnot : ∀ c ∈ candidates, ¬IsPerfect score c := fun c hc hc' => hperfect ⟨c, hc, hc'⟩
      obtain ⟨_, _, _, hselect⟩ := exists_select_of_not_isPerfect hnumber hcandidates hnot
      rw [hselect] at hnone
      nomatch hnone
  · rintro rfl
    rfl

/-! ## Scores that are not above 100 -/

include hnumber in
/-- The first perfect candidate is the first maximum if no score is above a perfect one's 100. -/
theorem select_eq_firstMaximum? (hle : ∀ c ∈ candidates, ∀ d ∈ candidates,
      IsPerfect score c → Score.le (score d) (Score.ofNat 100)) :
    (select score candidates).1 = (firstMaximum? score candidates).map fun found =>
      ⟨found.1, score found.2, Score.le (Score.ofNat 100) (score found.2)⟩ := by
  by_cases hperfect : ∃ c ∈ candidates, IsPerfect score c
  · obtain ⟨before, c, after, rfl, hc, hbefore, hselect⟩ := select_of_isPerfect hperfect
    have hmem : c ∈ before ++ c :: after := List.mem_append_right _ List.mem_cons_self
    have hmaximum : IsFirstMaximum score (before ++ c :: after) before.length c := by
      refine ⟨before, after, rfl, rfl, ?_, ?_⟩
      -- A candidate in front with a score as great would be perfect itself.
      · intro d hd
        by_contra hlt
        have hcd := Score.le_of_not_lt (hnumber d (List.mem_append_left _ hd)) (hnumber c hmem) hlt
        exact hbefore d hd (LawfulScore.le_trans hc hcd)
      · intro d hd
        have hd := List.mem_append_right before (List.mem_cons_of_mem c hd)
        exact LawfulScore.le_trans (hle c hmem d hd hc) hc
    rw [hselect, hmaximum.firstMaximum?_eq, Option.map_some, hc]
  · have hnot : ∀ c ∈ candidates, ¬IsPerfect score c := fun c hc hc' => hperfect ⟨c, hc, hc'⟩
    by_cases hcandidates : candidates = []
    · rw [hcandidates]
      rfl
    · obtain ⟨index, c, h, hselect⟩ := exists_select_of_not_isPerfect hnumber hcandidates hnot
      have hmem := mem_of_firstMaximum? h.firstMaximum?_eq
      rw [hselect, h.firstMaximum?_eq, Option.map_some, Bool.eq_false_iff.mpr (hnot c hmem)]

end Selecting

/-! ## Adjusted scores -/

section Adjusted

variable {α : Type} [Score α] [LawfulScore α]

variable (p : Penalties α) (preferences : Preferences) (fraction : α)
  {candidates : List (Candidate α)}

/-- The best match is the first maximum of all adjusted scores. -/
theorem bestMatch?_eq_firstMaximum?
    (hnumber : ∀ c ∈ candidates, Score.IsNumber (p.adjust preferences fraction c)) :
    p.bestMatch? preferences fraction candidates =
      (firstMaximum? (p.adjust preferences fraction) candidates).map fun found =>
        Match.ofUnit found.2.unit (p.adjust preferences fraction found.2) := by
  have hselect := select_eq_firstMaximum? hnumber fun c _ d hd hperfect =>
    Score.clamp_le (LawfulScore.le_left hperfect) (hnumber d hd)
  rw [Penalties.bestMatch?, hselect]
  cases hfound : firstMaximum? (p.adjust preferences fraction) candidates with
  | none => rfl
  | some found =>
    obtain ⟨before, after, rfl, hplace, -⟩ := (firstMaximum?_eq_some_iff hnumber).mp hfound
    have hat : (before ++ found.2 :: after)[found.1]? = some found.2 := by
      rw [← hplace, List.getElem?_append_right (Nat.le_refl _), Nat.sub_self]
      rfl
    simp only [Option.map_some, Option.bind_eq_bind, Option.bind_some, hat]
    rfl

/-- **What is selected, and which candidates are scored for it.**  Nothing is selected from an
empty list only.  If there are perfect candidates, the first of them is selected and the search ends
with it; otherwise each candidate is scored once, and the first of those with the greatest score is
selected.  The score function is called with the candidates that are counted, in order.

Adjusted scores are not above 100, so there the search selects what scoring every candidate and
taking the first maximum selects. -/
theorem select_spec {β : Type} {score : β → α} {candidates : List β}
    (hnumber : ∀ c ∈ candidates, Score.IsNumber (score c)) :
    ((select score candidates).1 = none ↔ candidates = []) ∧
      ((∃ c ∈ candidates, IsPerfect score c) →
        ∃ before c after, candidates = before ++ c :: after ∧ IsPerfect score c ∧
          (∀ d ∈ before, ¬IsPerfect score d) ∧
          select score candidates = (some ⟨before.length, score c, true⟩, before.length + 1)) ∧
      (candidates ≠ [] → (∀ c ∈ candidates, ¬IsPerfect score c) →
        ∃ index c, IsFirstMaximum score candidates index c ∧
          select score candidates = (some ⟨index, score c, false⟩, candidates.length)) ∧
      (selectM (recording score) candidates).run [] =
        ((select score candidates).1, candidates.take (select score candidates).2) ∧
      ∀ (p : Penalties α) (preferences : Preferences) (fraction : α)
        (candidates : List (Candidate α)),
        (∀ c ∈ candidates, Score.IsNumber (p.adjust preferences fraction c)) →
          p.bestMatch? preferences fraction candidates =
            (firstMaximum? (p.adjust preferences fraction) candidates).map fun found =>
              Match.ofUnit found.2.unit (p.adjust preferences fraction found.2) :=
  ⟨select_eq_none_iff hnumber, select_of_isPerfect, exists_select_of_not_isPerfect hnumber,
    selectM_recording candidates,
    fun p preferences fraction _ hnumber =>
      bestMatch?_eq_firstMaximum? p preferences fraction hnumber⟩

/-- Among fractions every score is a number.  The search ends at the second candidate here, and the
third one is never scored although it is better. -/
theorem select_spec_fractions :
    (∀ c ∈ ([70, 100, 130] : List Rat), Score.IsNumber c) ∧
      select id ([70, 100, 130] : List Rat) = (some ⟨1, 100, true⟩, 2) := by
  have hnumber : ∀ c ∈ ([70, 100, 130] : List Rat), Score.IsNumber (id c) :=
    fun c _ => Score.isNumber_rat c
  have h70 : ¬IsPerfect id (70 : Rat) := by decide +kernel
  have h100 : IsPerfect id (100 : Rat) := by decide +kernel
  obtain ⟨-, hperfect, -⟩ := select_spec hnumber
  obtain ⟨before, c, after, hsplit, hc, hbefore, hselect⟩ :=
    hperfect ⟨100, List.mem_cons_of_mem _ List.mem_cons_self, h100⟩
  refine ⟨hnumber, hselect.trans ?_⟩
  -- The first candidate is not perfect and the second one is, so there is one in front.
  match before with
  | [] =>
    cases hsplit
    exact absurd hc h70
  | [_] =>
    cases hsplit
    rfl
  | _ :: b :: _ =>
    have hb : 100 = b := (List.cons.inj (List.cons.inj hsplit).2).1
    rw [hb] at h100
    exact absurd h100 (hbefore b (List.mem_cons_of_mem _ List.mem_cons_self))

end Adjusted

end Bitext
