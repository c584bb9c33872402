import Bitext.Proofs.Score.Order
import Bitext.Query.Basic

/-!
# What a concordance lists

A concordance is made of the candidates that were retrieved: scores are adjusted, weak matches are
dropped, the others are ranked, all but the first match of each target text are dropped, and the
list is cut at the limit.  The order of these steps matters.  Ranking before dropping makes the
match that is kept the best one of its target, and dropping before cutting makes room for other
targets.

The proof ranks matches together with the places of their candidates.  The place of a match tells
which of two equal matches was retrieved first, which the match itself does not.

## Main definitions

* `IsFirstBest`: the match of the best candidate for its target, the first of them on a tie.
* `IsConcordance`: what is said of a concordance.

## Main results

* `isConcordance_rank`: the list that is made of candidates
* `isConcordance_concordance`: the concordance of a query
-/

namespace Bitext

namespace Engine

variable {α : Type}

/-! ## The first match of each target -/

section Distinct

variable {β : Type} {l : List (Match α × β)} {ms : List (Match α)}

/-- The matches that are left are the first ones of their targets. -/
theorem exists_sublist_distinctTargets (seen : List Text) (l : List (Match α × β)) :
    ∃ s : List (Match α × β), s.Sublist l ∧
      s.map Prod.fst = distinctTargets seen (l.map Prod.fst) ∧
      ∀ p ∈ s, p.1.target ∉ seen ∧
        ∃ l₁ l₂, l = l₁ ++ p :: l₂ ∧ ∀ x ∈ l₁, x.1.target ≠ p.1.target := by
  induction l generalizing seen with
  | nil => exact ⟨[], .slnil, rfl, by simp⟩
  | cons x l ih =>
    by_cases hx : x.1.target ∈ seen
    · obtain ⟨s, hsublist, hmap, hfirst⟩ := ih seen
      refine ⟨s, hsublist.cons x, ?_, ?_⟩
      · rw [hmap, List.map_cons, distinctTargets, if_pos (List.contains_iff_mem.mpr hx)]
      · intro p hp
        obtain ⟨hnot, l₁, l₂, rfl, hl₁⟩ := hfirst p hp
        refine ⟨hnot, x :: l₁, l₂, rfl, List.forall_mem_cons.mpr ⟨?_, hl₁⟩⟩
        rintro heq
        exact hnot (heq ▸ hx)
    · obtain ⟨s, hsublist, hmap, hfirst⟩ := ih (x.1.target :: seen)
      refine ⟨x :: s, hsublist.cons_cons x, ?_, List.forall_mem_cons.mpr ⟨⟨hx, ?_⟩, ?_⟩⟩
      · rw [List.map_cons, hmap, List.map_cons, distinctTargets,
          if_neg (mt List.contains_iff_mem.mp hx)]
      · exact ⟨[], l, rfl, by simp⟩
      · intro p hp
        obtain ⟨hnot, l₁, l₂, rfl, hl₁⟩ := hfirst p hp
        rw [List.mem_cons, not_or] at hnot
        exact ⟨hnot.2, x :: l₁, l₂, rfl, List.forall_mem_cons.mpr ⟨Ne.symm hnot.1, hl₁⟩⟩

theorem mem_targets_distinctTargets {t : Text} (seen : List Text) (ms : List (Match α)) :
    t ∈ (distinctTargets seen ms).map (·.target) ↔ t ∈ ms.map (·.target) ∧ t ∉ seen := by
  induction ms generalizing seen with
  | nil => simp [distinctTargets]
  | cons m ms ih =>
    by_cases hm : m.target ∈ seen
    · rw [distinctTargets, if_pos (List.contains_iff_mem.mpr hm), ih, List.map_cons, List.mem_cons]
      constructor
      · rintro ⟨ht, hnot⟩
        exact ⟨.inr ht, hnot⟩
      · rintro ⟨rfl | ht, hnot⟩
        · exact absurd hm hnot
        · exact ⟨ht, hnot⟩
    · rw [distinctTargets, if_neg (mt List.contains_iff_mem.mp hm), List.map_cons, List.mem_cons,
        ih, List.map_cons, List.mem_cons, List.mem_cons]
      constructor
      · rintro (rfl | ⟨ht, hnot⟩)
        · exact ⟨.inl rfl, hm⟩
        · exact ⟨.inr ht, fun hseen => hnot (.inr hseen)⟩
      · rintro ⟨rfl | ht, hnot⟩
        · exact .inl rfl
        · by_cases heq : t = m.target
          · exact .inl heq
          · exact .inr ⟨ht, fun h => h.elim heq hnot⟩

theorem nodup_targets_distinctTargets (seen : List Text) (ms : List (Match α)) :
    ((distinctTargets seen ms).map (·.target)).Nodup := by
  induction ms generalizing seen with
  | nil => exact List.nodup_nil
  | cons m ms ih =>
    rw [distinctTargets]
    split
    · exact ih seen
    · refine List.nodup_cons.mpr ⟨fun hm => ?_, ih _⟩
      exact ((mem_targets_distinctTargets _ ms).mp hm).2 List.mem_cons_self

end Distinct

/-! ## Matches with the places of their candidates -/

variable [Score α] (e : Engine α) (q : Query α) (candidates : List (Candidate α))

/-- The match of a candidate, with its adjusted score. -/
def matchOf (c : Candidate α) : Match α := .ofUnit c.unit (e.adjust q c)

/-- The match belongs to the candidate at a place that is the best one for its target: no candidate
for the target scores more, and none before it scores as much. -/
def IsFirstBest (m : Match α) (place : Nat) : Prop :=
  ∃ c, candidates[place]? = some c ∧ m = e.matchOf q c ∧
    ∀ other d, candidates[other]? = some d → d.unit.targetText = m.target →
      ¬Score.lt m.score (e.adjust q d) ∧
        (other < place → ¬Score.le m.score (e.adjust q d))

/-- The strong matches with the places of their candidates, ranked. -/
def rankedPlaces : List (Match α × Nat) :=
  ((candidates.zipIdx.map fun p => (e.matchOf q p.1, p.2)).filter
    fun p => Score.le q.minMatch p.1.score).mergeSort fun a b => !Score.lt a.1.score b.1.score

section Places

variable {e q candidates} {m : Match α} {place : Nat}

theorem mem_rankedPlaces :
    (m, place) ∈ e.rankedPlaces q candidates ↔
      (∃ c, candidates[place]? = some c ∧ m = e.matchOf q c) ∧ Score.le q.minMatch m.score := by
  rw [rankedPlaces, List.mem_mergeSort, List.mem_filter, List.mem_map]
  constructor
  · rintro ⟨⟨⟨c, i⟩, hc, heq⟩, hstrong⟩
    cases heq
    exact ⟨⟨c, List.mem_zipIdx_iff_getElem?.mp hc, rfl⟩, hstrong⟩
  · rintro ⟨⟨c, hc, rfl⟩, hstrong⟩
    exact ⟨⟨(c, place), List.mem_zipIdx_iff_getElem?.mpr hc, rfl⟩, hstrong⟩

/-- Without the places, these are the matches that a concordance is made of. -/
theorem rank_eq : e.rank q candidates =
    (distinctTargets [] ((e.rankedPlaces q candidates).map Prod.fst)).take q.limit := by
  have hmatches : (candidates.zipIdx.map fun p => (e.matchOf q p.1, p.2)).map Prod.fst =
      candidates.map fun c => Match.ofUnit c.unit (e.adjust q c) := by
    rw [List.map_map]
    conv_rhs => rw [← List.zipIdx_map_fst 0 candidates, List.map_map]
    rfl
  have hsorted : (e.rankedPlaces q candidates).map Prod.fst =
      (((candidates.zipIdx.map fun p => (e.matchOf q p.1, p.2)).filter
        fun p => Score.le q.minMatch p.1.score).map Prod.fst).mergeSort
          fun a b => !Score.lt a.score b.score :=
    List.map_mergeSort fun _ _ _ _ => rfl
  rw [rank, hsorted, ← hmatches, List.filter_map]
  rfl

/-- A match has one such place at most. -/
theorem IsFirstBest.unique {i j : Nat} (hnumber : Score.IsNumber m.score)
    (hi : e.IsFirstBest q candidates m i) (hj : e.IsFirstBest q candidates m j) : i = j := by
  have hnot {i j : Nat} (hi : e.IsFirstBest q candidates m i)
      (hj : e.IsFirstBest q candidates m j) : ¬i < j := by
    intro hlt
    obtain ⟨c, hc, rfl, -⟩ := hi
    obtain ⟨-, -, -, hbest⟩ := hj
    exact (hbest i c hc rfl).2 hlt hnumber
  have := hnot hi hj
  have := hnot hj hi
  omega

variable [LawfulScore α]

/-- The ranking: by descending score, and of equal scores the one that was retrieved first. -/
theorem pairwise_rankedPlaces (e : Engine α) (q : Query α) (candidates : List (Candidate α)) :
    (e.rankedPlaces q candidates).Pairwise fun a b =>
      Score.le b.1.score a.1.score ∧ (Score.le a.1.score b.1.score → a.2 < b.2) := by
  refine Score.pairwise_mergeSort_score (fun p : Match α × Nat => p.1.score) ?_ ?_
  · intro p hp
    exact LawfulScore.le_right (List.mem_filter.mp hp).2
  · refine List.Pairwise.filter _ (List.pairwise_map.mpr ?_)
    have hplaces : (candidates.zipIdx.map Prod.snd).Pairwise (· < ·) := by
      rw [List.zipIdx_map_snd]
      exact List.pairwise_lt_range'
    exact List.pairwise_map.mp hplaces

/-- The first match of its target in the ranking is that of the best candidate. -/
theorem isFirstBest_of_rankedPlaces {l₁ l₂ : List (Match α × Nat)}
    (h : e.rankedPlaces q candidates = l₁ ++ (m, place) :: l₂)
    (hfirst : ∀ x ∈ l₁, x.1.target ≠ m.target) : e.IsFirstBest q candidates m place := by
  have hm : (m, place) ∈ e.rankedPlaces q candidates :=
    h ▸ List.mem_append_right l₁ List.mem_cons_self
  obtain ⟨⟨c, hc, hmatch⟩, hstrong⟩ := mem_rankedPlaces.mp hm
  refine ⟨c, hc, hmatch, fun other d hd htarget => ?_⟩
  by_cases hdstrong : Score.le q.minMatch (e.adjust q d)
  · -- The other candidate is ranked as well, at this place or behind it.
    have hmem : (e.matchOf q d, other) ∈ l₁ ++ (m, place) :: l₂ :=
      h ▸ mem_rankedPlaces.mpr ⟨⟨d, hd, rfl⟩, hdstrong⟩
    have hbehind : (m, place) = (e.matchOf q d, other) ∨ (e.matchOf q d, other) ∈ l₂ := by
      rcases List.mem_append.mp hmem with hmem | hmem
      · exact absurd htarget (hfirst _ hmem)
      · exact (List.mem_cons.mp hmem).imp_left Eq.symm
    rcases hbehind with heq | hmem
    · cases heq
      exact ⟨Score.lt_irrefl _, fun hlt => absurd hlt (Nat.lt_irrefl _)⟩
    · have hpairwise := pairwise_rankedPlaces e q candidates
      rw [h] at hpairwise
      obtain ⟨hle, htie⟩ := List.rel_of_pairwise_cons (List.pairwise_append.mp hpairwise).2.1 hmem
      exact ⟨Score.not_lt_of_le hle, fun hlt hback => Nat.lt_asymm hlt (htie hback)⟩
  · refine ⟨fun hlt => hdstrong ?_, fun _ hle => hdstrong ?_⟩
    · exact LawfulScore.le_trans hstrong (Score.le_of_lt hlt)
    · exact LawfulScore.le_trans hstrong hle

end Places

/-! ## The list -/

/-- What is said of a concordance that is made of candidates. -/
structure IsConcordance (list : List (Match α)) : Prop where
  length_le : list.length ≤ q.limit
  strong : ∀ m ∈ list, Score.le q.minMatch m.score
  nodup : (list.map (·.target)).Nodup
  descending : list.Pairwise fun m n => Score.le n.score m.score
  /-- Each match is the best one of its target. -/
  firstBest : ∀ m ∈ list, ∃ place, e.IsFirstBest q candidates m place
  /-- Equal scores keep the order of retrieval. -/
  inOrder : list.Pairwise fun m n => Score.le m.score n.score → ∀ i j,
    e.IsFirstBest q candidates m i → e.IsFirstBest q candidates n j → i < j
  /-- A strong candidate whose target is not listed scores no more than any match that is. -/
  noneBetter : ∀ m ∈ list, ∀ d ∈ candidates, Score.le q.minMatch (e.adjust q d) →
    d.unit.targetText ∉ list.map (·.target) → ¬Score.lt m.score (e.adjust q d)

section List

variable {e q candidates}

/-- The target of a strong candidate is the target of a match in the ranking. -/
theorem mem_targets_rankedPlaces {d : Candidate α} (hd : d ∈ candidates)
    (hstrong : Score.le q.minMatch (e.adjust q d)) :
    d.unit.targetText ∈
      (distinctTargets [] ((e.rankedPlaces q candidates).map Prod.fst)).map (·.target) := by
  obtain ⟨place, hplace⟩ := List.mem_iff_getElem?.mp hd
  have hmem : (e.matchOf q d, place) ∈ e.rankedPlaces q candidates :=
    mem_rankedPlaces.mpr ⟨⟨d, hplace, rfl⟩, hstrong⟩
  refine (mem_targets_distinctTargets [] _).mpr ⟨?_, List.not_mem_nil⟩
  rw [List.map_map]
  exact List.mem_map_of_mem (f := fun p => p.1.target) hmem

/-- A list that is shorter than the limit leaves out no target. -/
theorem mem_targets_rank (hlength : (e.rank q candidates).length < q.limit) {d : Candidate α}
    (hd : d ∈ candidates) (hstrong : Score.le q.minMatch (e.adjust q d)) :
    d.unit.targetText ∈ (e.rank q candidates).map (·.target) := by
  rw [rank_eq, List.length_take] at hlength
  rw [rank_eq, List.take_of_length_le (by omega)]
  exact mem_targets_rankedPlaces hd hstrong

variable [LawfulScore α]

/-- The listed matches with their places: the first of each target in the ranking, as many as the
limit allows. -/
theorem exists_places_rank (e : Engine α) (q : Query α) (candidates : List (Candidate α)) :
    ∃ s : List (Match α × Nat),
      s.map Prod.fst = distinctTargets [] ((e.rankedPlaces q candidates).map Prod.fst) ∧
      e.rank q candidates = (s.take q.limit).map Prod.fst ∧
      (∀ p ∈ s, Score.le q.minMatch p.1.score ∧ e.IsFirstBest q candidates p.1 p.2) ∧
      s.Pairwise fun a b =>
        Score.le b.1.score a.1.score ∧ (Score.le a.1.score b.1.score → a.2 < b.2) := by
  obtain ⟨s, hsublist, hmap, hfirst⟩ :=
    exists_sublist_distinctTargets [] (e.rankedPlaces q candidates)
  refine ⟨s, hmap, ?_, ?_, (pairwise_rankedPlaces e q candidates).sublist hsublist⟩
  · rw [rank_eq, ← hmap, List.map_take]
  · rintro ⟨m, place⟩ hp
    obtain ⟨-, l₁, l₂, hsplit, hl₁⟩ := hfirst _ hp
    exact ⟨(mem_rankedPlaces.mp (hsublist.subset hp)).2, isFirstBest_of_rankedPlaces hsplit hl₁⟩

/-- **The list that is made of candidates is a concordance of them.** -/
theorem isConcordance_rank (e : Engine α) (q : Query α) (candidates : List (Candidate α)) :
    e.IsConcordance q candidates (e.rank q candidates) := by
  obtain ⟨s, hmap, hrank, hbest, hpairwise⟩ := exists_places_rank e q candidates
  have htake : ∀ p ∈ s.take q.limit, p ∈ s := fun p => List.mem_of_mem_take
  have hordered := hpairwise.sublist (List.take_sublist q.limit s)
  rw [hrank]
  constructor
  · rw [List.length_map, List.length_take]
    exact Nat.min_le_left _ _
  · intro m hm
    obtain ⟨p, hp, rfl⟩ := List.mem_map.mp hm
    exact (hbest p (htake p hp)).1
  · rw [List.map_take, hmap, List.map_take]
    exact (nodup_targets_distinctTargets [] _).sublist (List.take_sublist _ _)
  · exact List.pairwise_map.mpr (hordered.imp fun h => h.1)
  · intro m hm
    obtain ⟨p, hp, rfl⟩ := List.mem_map.mp hm
    exact ⟨p.2, (hbest p (htake p hp)).2⟩
  · refine List.pairwise_map.mpr (hordered.imp_of_mem ?_)
    rintro a b ha hb ⟨-, htie⟩ hback i j hi hj
    obtain ⟨hstrong, hplace⟩ := hbest a (htake a ha)
    obtain ⟨hstrong', hplace'⟩ := hbest b (htake b hb)
    rw [hi.unique (LawfulScore.le_right hstrong) hplace,
      hj.unique (LawfulScore.le_right hstrong') hplace']
    exact htie hback
  · -- The first match of the other target comes behind the list, and is the best of its target.
    intro m hm d hd hstrong hnot hlt
    obtain ⟨p, hp, rfl⟩ := List.mem_map.mp hm
    have htarget := mem_targets_rankedPlaces hd hstrong
    rw [← hmap, List.map_map] at htarget
    obtain ⟨b, hb, hbtarget⟩ := List.mem_map.mp htarget
    have hdrop : b ∈ s.drop q.limit := by
      rw [← List.take_append_drop q.limit s] at hb
      refine (List.mem_append.mp hb).resolve_left fun hb => hnot ?_
      rw [List.map_map]
      exact List.mem_map.mpr ⟨b, hb, hbtarget⟩
    rw [← List.take_append_drop q.limit s] at hpairwise
    obtain ⟨hle, -⟩ := (List.pairwise_append.mp hpairwise).2.2 p hp b hdrop
    obtain ⟨other, hother⟩ := List.mem_iff_getElem?.mp hd
    obtain ⟨hbstrong, -, -, -, hbbest⟩ := hbest b (List.mem_of_mem_drop hdrop)
    have hnotlt := (hbbest other d hother hbtarget.symm).1
    have hdb := Score.le_of_not_lt (LawfulScore.le_right hbstrong)
      (LawfulScore.le_right hstrong) hnotlt
    exact Score.not_lt_of_le (LawfulScore.le_trans hdb hle) hlt

end List

variable {e q candidates}

theorem concordance_of_retrieve {text : Text} (hblank : Text.isBlank text = false)
    (h : e.retrieve text q (max e.settings.concordanceLimit q.limit) = .ok candidates) :
    e.concordance text q = .ok (e.rank q candidates) := by
  rw [concordance, hblank, if_neg Bool.false_ne_true, h]
  rfl

/-- **What a concordance lists**: for the candidates that are retrieved there is a concordance of
them, and it leaves out no target if it is shorter than the limit. -/
theorem isConcordance_concordance [LawfulScore α] {text : Text}
    (h : e.retrieve text q (max e.settings.concordanceLimit q.limit) = .ok candidates) :
    ∃ list, e.concordance text q = .ok list ∧ e.IsConcordance q candidates list ∧
      (Text.isBlank text = false → list.length < q.limit → ∀ d ∈ candidates,
        Score.le q.minMatch (e.adjust q d) → d.unit.targetText ∈ list.map (·.target)) := by
  cases hblank : Text.isBlank text with
  | true =>
    refine ⟨[], by rw [concordance, if_pos hblank], ?_, fun hfalse => nomatch hfalse⟩
    constructor <;> simp
  | false =>
    refine ⟨e.rank q candidates, concordance_of_retrieve hblank h,
      isConcordance_rank e q candidates, fun _ hlength d => ?_⟩
    exact mem_targets_rank hlength

/-! ### A concordance of three candidates -/

/-- A unit of two texts. -/
def sampleUnit (source target : String) : TranslationUnit where
  sourceText := source.toList
  targetText := target.toList
  sourceLanguage := "en".toList
  targetLanguage := "es".toList

/-- Two candidates for one target, the second of which is better, and one for another target. -/
def sampleCandidates : List (Candidate Rat) :=
  [⟨sampleUnit "Hallo" "Hola", 80⟩, ⟨sampleUnit "Hello" "Hola", 100⟩,
    ⟨sampleUnit "Hello" "Buenas", 100⟩]

/-- An engine whose backend has these units. -/
def sampleEngine : Engine Rat where
  backend :=
    { search := fun _ _ _ _ => .ok sampleCandidates
      scan := fun _ _ => .ok (sampleCandidates.map (·.unit)) }
  penalties := ⟨5, 5, 1⟩
  settings := ⟨1 / 5, 10, 10⟩

/-- A query for matches of 75 or more. -/
def sampleQuery : Query Rat where
  texts := ["Hello".toList]
  pair := ⟨"en".toList, "es".toList⟩
  output := .json
  limit := 10
  domains := []
  preferredDomain? := none
  minMatch := 75
  concordance := true
  automaticTranslation := false
  exactLength := false
  sourceProperties := .empty
  targetProperties := .empty
  penalizeDirty := false

theorem retrieve_sample (limit : Nat) :
    sampleEngine.retrieve "Hello".toList sampleQuery limit = .ok sampleCandidates := by
  with_unfolding_all rfl

theorem isConcordance_sample :
    ∃ list, sampleEngine.concordance "Hello".toList sampleQuery = .ok list ∧
      sampleEngine.IsConcordance sampleQuery sampleCandidates list ∧
      (list.length < 10 → "Buenas".toList ∈ list.map (·.target)) := by
  obtain ⟨list, hlist, hconcordance, hcomplete⟩ := isConcordance_concordance (retrieve_sample _)
  refine ⟨list, hlist, hconcordance, fun hlength => ?_⟩
  exact hcomplete rfl hlength ⟨sampleUnit "Hello" "Buenas", 100⟩ (by simp [sampleCandidates]) rfl

end Engine

end Bitext
