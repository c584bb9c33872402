import Bitext.Proofs.Query.Retrieval

/-!
# The best match and the first of a concordance

A query can be answered with its best match or with a concordance.  The two ways retrieve different
numbers of candidates, and one goes through them in order where the other sorts them, drops the weak
ones and keeps one match for each target.  They agree where the query neither takes points off nor
compares properties: then the candidates come ranked already, their first one is the best in both
ways, and it is the same however many are retrieved.

## Main definitions

* `Query.IsNeutral`: queries that take no points off and compare no properties.

## Main results

* `match?_judge_cons`, `head?_rank_cons`: both ways answer with the first of ranked candidates
* `match?_answer_eq_head?_concordance`: the best match is the first of the concordance
-/

namespace Bitext

/-- The query takes no points off and asks for no properties. -/
structure Query.IsNeutral {α : Type} (q : Query α) : Prop where
  preferredDomain? : q.preferredDomain? = none
  penalizeDirty : q.penalizeDirty = false
  sourceProperties : q.sourceProperties = .empty
  targetProperties : q.targetProperties = .empty

namespace Engine

/-! ## Answers without translation and tags -/

section Answers

variable {α : Type} [Score α] {e : Engine α} {q : Query α}

theorem answer_of_bestMatch {outcome : Outcome α} (htokenizers : e.tokenizers? = none)
    (htranslation : q.automaticTranslation = false) {text : Text}
    (h : e.bestMatch text q = .ok outcome) : e.answer text q = .ok outcome := by
  have horiginal : e.orTranslated text q outcome = outcome := by
    unfold orTranslated
    cases outcome <;> simp only [htranslation, Bool.false_eq_true, if_false]
  rw [answer, h]
  show e.withQueryTags text q (e.orTranslated text q outcome) = _
  rw [horiginal, withQueryTags, htokenizers]

theorem one_le_candidateCap {limit : Nat} (hlimit : 1 ≤ limit) (minMatch : α) :
    1 ≤ candidateCap limit minMatch := by
  rw [candidateCap]
  split
  · exact hlimit.trans (Nat.le_max_right _ _)
  · exact hlimit

end Answers

/-! ## Ranked candidates -/

section Ranked

variable {α : Type} [Score α] [LawfulScore α] {e : Engine α} {q : Query α} {c : Candidate α}
  {rest : List (Candidate α)}

/-- The best match among candidates that the first one leads: the first one, if it is strong enough.
A perfect one is taken without regard to the threshold, which asks for no more than that. -/
theorem match?_judge_cons (hstrategy : e.strategy? = none)
    (hthreshold : Score.le q.minMatch (Score.ofNat 100)) (hnumber : Score.IsNumber (e.adjust q c))
    (hrest : ∀ d ∈ rest, Score.le (e.adjust q d) (e.adjust q c)) (text : Text) :
    (e.judge text q (c :: rest)).match? =
      if Score.le q.minMatch (e.adjust q c) then some (e.matchOf q c) else none := by
  have hselect := select_cons_of_not_lt hnumber fun d hd => Score.not_lt_of_le (hrest d hd)
  rw [judge, hselect, hstrategy]
  cases hperfect : Score.le (Score.ofNat 100) (e.adjust q c) with
  | true =>
    rw [if_pos (LawfulScore.le_trans hthreshold hperfect)]
    rfl
  | false =>
    simp only [List.getElem?_cons_zero, Bool.false_eq_true, if_false]
    split
    · rename_i hstrong
      exact (if_pos hstrong).symm
    · rename_i hweak
      exact (if_neg hweak).symm

/-- Nothing is moved where ranked candidates are sorted. -/
theorem rank_eq_of_pairwise {candidates : List (Candidate α)}
    (hranked : candidates.Pairwise fun a b => Score.le (e.adjust q b) (e.adjust q a)) :
    e.rank q candidates = (distinctTargets []
      ((candidates.map (e.matchOf q)).filter fun m => Score.le q.minMatch m.score)).take
        q.limit := by
  have hsorted : ((candidates.map (e.matchOf q)).filter
      fun m => Score.le q.minMatch m.score).Pairwise fun a b => !Score.lt a.score b.score := by
    refine List.Pairwise.filter _ (List.pairwise_map.mpr (hranked.imp ?_))
    intro a b hle
    rw [Bool.not_eq_true']
    exact Bool.eq_false_iff.mpr (Score.not_lt_of_le hle)
  exact congrArg (fun l => (distinctTargets [] l).take q.limit)
    (List.mergeSort_of_pairwise hsorted)

/-- The first match of the list that is made of ranked candidates: that of the first one, if it is
strong enough. -/
theorem head?_rank_cons (hlimit : 1 ≤ q.limit)
    (hranked : (c :: rest).Pairwise fun a b => Score.le (e.adjust q b) (e.adjust q a)) :
    (e.rank q (c :: rest)).head? =
      if Score.le q.minMatch (e.adjust q c) then some (e.matchOf q c) else none := by
  obtain ⟨limit, hsucc⟩ := Nat.exists_eq_add_of_le' hlimit
  rw [rank_eq_of_pairwise hranked, List.map_cons, hsucc]
  by_cases hstrong : Score.le q.minMatch (e.adjust q c)
  · rw [List.filter_cons_of_pos (p := fun m : Match α => Score.le q.minMatch m.score) hstrong,
      if_pos hstrong, distinctTargets, if_neg (by simp)]
    rfl
  · -- Nothing behind a weak candidate is strong.
    have hweak : (rest.map (e.matchOf q)).filter (fun m => Score.le q.minMatch m.score) = [] := by
      refine List.filter_eq_nil_iff.mpr ?_
      rintro m hm hle
      obtain ⟨d, hd, rfl⟩ := List.mem_map.mp hm
      exact hstrong (LawfulScore.le_trans hle (List.rel_of_pairwise_cons hranked hd))
    rw [List.filter_cons_of_neg (p := fun m : Match α => Score.le q.minMatch m.score) hstrong,
      hweak, if_neg hstrong]
    rfl

end Ranked

/-! ## Neutral queries -/

section Neutral

variable {m : Memory} {e : Engine Rat} {q : Query Rat}

theorem adjust_of_isNeutral (hq : q.IsNeutral) (c : Candidate Rat) :
    e.adjust q c = Score.clamp (Score.ofNat 0) (Score.ofNat 100) c.score := by
  rw [adjust, Query.preferences, hq.preferredDomain?, hq.penalizeDirty]
  rfl

theorem admits_of_isNeutral (hq : q.IsNeutral) (u : TranslationUnit) : q.admits u = true := by
  rw [Query.admits, hq.sourceProperties, hq.targetProperties]
  rfl

/-- Whatever is retrieved for a neutral query is the beginning of one ranking. -/
theorem exists_ranked_candidates (hbackend : e.backend = m.backend) (hq : q.IsNeutral)
    (text : Text) :
    ∃ sorted : List (Candidate Rat),
      sorted.Pairwise (fun a b => Score.le (e.adjust q b) (e.adjust q a)) ∧
      ∀ limit, e.retrieve text q limit = .ok (sorted.take limit) := by
  refine ⟨(m.eligible text q.pair q.searchFilters).mergeSort
    fun a b => !Score.lt a.score b.score, ?_, fun limit => ?_⟩
  · have hsorted := Score.pairwise_mergeSort_score (fun c : Candidate Rat => c.score)
      (fun c _ => Score.isNumber_rat c.score)
      (List.pairwise_of_forall (R := fun _ _ => True) (l := m.eligible text q.pair q.searchFilters)
        fun _ _ => trivial)
    refine hsorted.imp ?_
    rintro a b ⟨hle, -⟩
    rw [adjust_of_isNeutral hq, adjust_of_isNeutral hq, Score.le_iff_rat]
    exact Score.clamp_le_clamp_rat _ _ (Score.le_iff_rat.mp hle)
  · rw [retrieve_memory hbackend]
    exact congrArg Except.ok (List.filter_eq_self.mpr fun c _ => admits_of_isNeutral hq c.unit)

/-- **The best match is the first of the concordance**, for neutral queries whose threshold is not
above 100: both exist or neither does. -/
theorem match?_answer_eq_head?_concordance (hbackend : e.backend = m.backend)
    (hstrategy : e.strategy? = none) (htokenizers : e.tokenizers? = none)
    (hcap : 1 ≤ e.settings.candidateLimit) (hq : q.IsNeutral)
    (htranslation : q.automaticTranslation = false) (hthreshold : q.minMatch ≤ 100)
    (hlimit : 1 ≤ q.limit) (text : Text) :
    ∃ outcome list, e.answer text q = .ok outcome ∧ e.concordance text q = .ok list ∧
      outcome.match? = list.head? := by
  cases hblank : Text.isBlank text with
  | true =>
    have hbest : e.bestMatch text q = .ok .noCandidates := by rw [bestMatch, if_pos hblank]
    exact ⟨_, [], answer_of_bestMatch htokenizers htranslation hbest,
      by rw [concordance, if_pos hblank], rfl⟩
  | false =>
    obtain ⟨sorted, hsorted, hretrieve⟩ := exists_ranked_candidates hbackend hq text
    refine ⟨_, _, answer_of_bestMatch htokenizers htranslation
      (bestMatch_of_retrieve hblank (hretrieve _)),
      concordance_of_retrieve hblank (hretrieve _), ?_⟩
    obtain ⟨cap, hcap⟩ := Nat.exists_eq_add_of_le' (one_le_candidateCap hcap q.minMatch)
    obtain ⟨size, hsize⟩ := Nat.exists_eq_add_of_le'
      (hlimit.trans (Nat.le_max_right e.settings.concordanceLimit q.limit))
    rw [hcap, hsize]
    cases sorted with
    | nil =>
      rw [List.take_nil, List.take_nil, rank_eq_of_pairwise List.Pairwise.nil, List.map_nil,
        List.filter_nil, distinctTargets, List.take_nil]
      rfl
    | cons c rest =>
      have hrest := List.pairwise_cons.mp hsorted
      rw [List.take_succ_cons, List.take_succ_cons,
        match?_judge_cons hstrategy (Score.le_iff_rat.mpr hthreshold) (Score.isNumber_rat _)
          fun d hd => hrest.1 d (List.mem_of_mem_take hd),
        head?_rank_cons hlimit (List.pairwise_cons.mpr
          ⟨fun d hd => hrest.1 d (List.mem_of_mem_take hd),
            hrest.2.sublist (List.take_sublist _ _)⟩)]

/-- Of units that are equally similar to a query, both ways answer with the one that is stored
first. -/
theorem match?_answer_eq_head?_concordance_crowded :
    ∃ outcome list, (crowdedEngine 1).answer "Hello".toList sampleQuery = .ok outcome ∧
      (crowdedEngine 1).concordance "Hello".toList sampleQuery = .ok list ∧
      outcome.match? = list.head? ∧
      list.head? = some (.ofUnit (sampleUnit "Hello" "Hola") 100) := by
  obtain ⟨outcome, list, hanswer, hlist, hfirst⟩ :=
    match?_answer_eq_head?_concordance (m := crowdedMemory) (e := crowdedEngine 1)
      (q := sampleQuery) rfl rfl rfl (by decide) ⟨rfl, rfl, rfl, rfl⟩ rfl (by decide +kernel)
      (by decide) "Hello".toList
  refine ⟨outcome, list, hanswer, hlist, hfirst, ?_⟩
  have hcap : candidateCap (crowdedEngine 1).settings.candidateLimit sampleQuery.minMatch = 2 := by
    decide +kernel
  have hbest : (crowdedEngine 1).bestMatch "Hello".toList sampleQuery =
      .ok (.exact (.ofUnit (sampleUnit "Hello" "Hola") 100)) := by
    have hretrieve : (crowdedEngine 1).retrieve "Hello".toList sampleQuery
        (candidateCap (crowdedEngine 1).settings.candidateLimit sampleQuery.minMatch) =
          .ok (List.replicate 2 ⟨sampleUnit "Hello" "Hola", 100⟩) := by
      rw [hcap]
      exact retrieve_crowded
    rw [bestMatch_of_retrieve rfl hretrieve]
    with_unfolding_all rfl
  rw [answer_of_bestMatch rfl rfl hbest] at hanswer
  rw [← hfirst, ← Except.ok.inj hanswer]
  rfl

end Neutral

end Engine

end Bitext
