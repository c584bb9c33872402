import Bitext.Proofs.Memory.Search
import Bitext.Proofs.Query.Concordance
import Bitext.Proofs.Score.Selection
import Bitext.Proofs.Score.Similarity
import Mathlib.Tactic.NormNum

/-!
# What the retrieval cap leaves out

An engine asks its memory for a bounded number of candidates, and everything else happens to
these: properties are compared, points are taken off, matches with one target are dropped.  So a
unit is certain to be considered only if few units rank in front of it.  Within the cap nothing is
lost: an exact match is found, and a concordance that is not full lists every target.

Beyond the cap both can be lost.  Units that are no match for the query may take up the cap
because the properties that the query asks for are compared afterwards, and units with one target
may take it up because they are dropped afterwards.

## Main results

* `mem_targets_concordance`: a concordance that is not full lists the target of every strong unit
  within the cap
* `exact_answer`: an exact match within the cap is found
* `concordance_crowded`, `answer_crowded`: what is lost beyond the cap
-/

namespace Bitext

namespace Engine

variable {m : Memory} {e : Engine Rat} {text : Text} {q : Query Rat}
  {before after : List TranslationUnit} {u v : TranslationUnit}

/-- A unit with few units in front of it is retrieved if the query admits it. -/
theorem mem_retrieved {limit : Nat} (hbackend : e.backend = m.backend)
    (hunits : m.units = before ++ u :: after)
    (hranks : Memory.Ranks text q.pair q.searchFilters u v) (hadmits : q.admits v)
    (hahead : Memory.ahead text q.pair q.searchFilters before after
      (similarity text v.sourceText * Score.ofNat 100 : Rat) < limit) :
    ∃ candidates, e.retrieve text q limit = .ok candidates ∧
      Memory.scored text v ∈ candidates := by
  obtain ⟨units⟩ := m
  obtain rfl : units = before ++ u :: after := hunits
  refine ⟨_, retrieve_memory hbackend text q limit, List.mem_filter.mpr ⟨?_, hadmits⟩⟩
  exact Memory.mem_search hranks hahead

/-! ## Concordances -/

/-- **A concordance that is not full lists every target within the cap**: that of every stored unit
that the search ranks, that the query admits, that scores enough after adjustment, and in front of
which fewer units rank than are retrieved. -/
theorem mem_targets_concordance (hbackend : e.backend = m.backend)
    (hblank : Text.isBlank text = false) (hunits : m.units = before ++ u :: after)
    (hranks : Memory.Ranks text q.pair q.searchFilters u v) (hadmits : q.admits v)
    (hstrong : q.minMatch ≤ e.adjust q (Memory.scored text v))
    (hahead : Memory.ahead text q.pair q.searchFilters before after
      (similarity text v.sourceText * Score.ofNat 100 : Rat) <
        max e.settings.concordanceLimit q.limit) :
    ∃ list, e.concordance text q = .ok list ∧
      (list.length < q.limit → v.targetText ∈ list.map (·.target)) := by
  obtain ⟨candidates, hretrieve, hmem⟩ := mem_retrieved hbackend hunits hranks hadmits hahead
  refine ⟨e.rank q candidates, concordance_of_retrieve hblank hretrieve, fun hlength => ?_⟩
  exact mem_targets_rank hlength hmem (Score.le_iff_rat.mpr hstrong)

/-! ### Three units for one query -/

/-- Two units with one target, and one with another target behind them. -/
def crowdedMemory : Memory :=
  ⟨[sampleUnit "Hello" "Hola", sampleUnit "Hello" "Hola", sampleUnit "Hello" "Buenas"]⟩

/-- An engine for this memory with a limit of candidates. -/
def crowdedEngine (limit : Nat) : Engine Rat :=
  { sampleEngine with backend := crowdedMemory.backend, settings := ⟨1 / 5, limit, limit⟩ }

/-- A query for two matches. -/
def twoWanted : Query Rat := { sampleQuery with limit := 2 }

theorem oriented_of_languages {u : TranslationUnit} (hsource : u.sourceLanguage = "en".toList)
    (htarget : u.targetLanguage = "es".toList) : u.oriented? sampleQuery.pair = some u := by
  refine if_pos ?_
  rw [TranslationUnit.pair, hsource, htarget]
  decide +kernel

theorem ranks_sampleUnit (target : String) :
    Memory.Ranks "Hello".toList twoWanted.pair twoWanted.searchFilters
      (sampleUnit "Hello" target) (sampleUnit "Hello" target) where
  oriented := oriented_of_languages rfl rfl
  accepted := rfl
  sameLength := nofun

/-- With a cap of three the unit that is stored last is within it. -/
theorem mem_targets_concordance_sample :
    ∃ list, (crowdedEngine 3).concordance "Hello".toList twoWanted = .ok list ∧
      (list.length < 2 → "Buenas".toList ∈ list.map (·.target)) := by
  have hunits : crowdedMemory.units =
      [sampleUnit "Hello" "Hola", sampleUnit "Hello" "Hola"] ++ sampleUnit "Hello" "Buenas" :: [] :=
    rfl
  refine mem_targets_concordance rfl rfl hunits (ranks_sampleUnit "Buenas") rfl ?_ ?_
  · decide +kernel
  · decide +kernel

/-- A cap of two leaves out the unit that is stored last. -/
theorem retrieve_crowded : (crowdedEngine 1).retrieve "Hello".toList twoWanted 2 =
    .ok (List.replicate 2 ⟨sampleUnit "Hello" "Hola", 100⟩) := by
  have heligible : crowdedMemory.eligible "Hello".toList twoWanted.pair twoWanted.searchFilters =
      crowdedMemory.units.map fun u => (⟨u, 100⟩ : Candidate Rat) := by
    with_unfolding_all rfl
  rw [retrieve_memory rfl, Memory.search_of_same_score 100 heligible (by simp)]
  rfl

/-- **Units with one target push out another target.**  Two of them take up a cap of two.  One match
is listed, where two are wanted, and the other target is missing although its unit is as strong. -/
theorem concordance_crowded :
    (crowdedEngine 1).backend = crowdedMemory.backend ∧ Text.isBlank "Hello".toList = false ∧
      1 ≤ twoWanted.limit ∧
      ∃ list, (crowdedEngine 1).concordance "Hello".toList twoWanted = .ok list ∧
        list.length < twoWanted.limit ∧
        ∃ u ∈ crowdedMemory.units, ∃ v,
          Memory.Ranks "Hello".toList twoWanted.pair twoWanted.searchFilters u v ∧
          twoWanted.admits v ∧
          twoWanted.minMatch ≤
            (crowdedEngine 1).adjust twoWanted (Memory.scored "Hello".toList v) ∧
          v.targetText ∉ list.map (·.target) := by
  -- What is retrieved has one target only, so the list has one match at most.
  let candidates : List (Candidate Rat) := List.replicate 2 ⟨sampleUnit "Hello" "Hola", 100⟩
  have hlist := isConcordance_rank (crowdedEngine 1) twoWanted candidates
  have htargets : ∀ t ∈ ((crowdedEngine 1).rank twoWanted candidates).map (·.target),
      t = "Hola".toList := by
    intro t ht
    obtain ⟨m, hm, rfl⟩ := List.mem_map.mp ht
    obtain ⟨place, c, hc, rfl, -⟩ := hlist.firstBest m hm
    rw [List.eq_of_mem_replicate (List.mem_of_getElem? hc)]
    rfl
  refine ⟨rfl, rfl, by decide, (crowdedEngine 1).rank twoWanted candidates,
    concordance_of_retrieve rfl retrieve_crowded, ?_, sampleUnit "Hello" "Buenas",
    by simp [crowdedMemory], sampleUnit "Hello" "Buenas", ranks_sampleUnit "Buenas", rfl, ?_,
    fun hmem => ?_⟩
  · have hrepeat := List.eq_replicate_of_mem htargets
    have hnodup := hlist.nodup
    rw [hrepeat, List.nodup_replicate, List.length_map] at hnodup
    exact Nat.lt_succ_of_le hnodup
  · decide +kernel
  · exact absurd (htargets _ hmem) (by decide)

/-! ## Exact matches -/

/-- In front of a perfectly similar unit rank those with the same plain text that were stored
earlier. -/
theorem ahead_of_strip_eq {pair : LanguagePair} {filters : SearchFilters}
    (before after : List TranslationUnit)
    (hplain : Markup.strip v.sourceText = Markup.strip text) :
    Memory.ahead text pair filters before after
        (similarity text v.sourceText * Score.ofNat 100 : Rat) =
      (Memory.eligible ⟨before⟩ text pair filters : List (Candidate Rat)).countP
        fun c => Markup.strip c.unit.sourceText = Markup.strip text := by
  have hperfect : (similarity text v.sourceText : Rat) = 1 := similarity_eq_one_iff.mpr hplain.symm
  have hscored {c : Candidate Rat} {units : List TranslationUnit}
      (hc : c ∈ Memory.eligible ⟨units⟩ text pair filters) :
      c.score = similarity text c.unit.sourceText * Score.ofNat 100 ∧
        (similarity text c.unit.sourceText : Rat) ≤ 1 := by
    obtain ⟨w, rfl⟩ := Memory.exists_scored_of_mem_eligible hc
    exact ⟨rfl, similarity_le_one _ _⟩
  have hafter : (Memory.eligible ⟨after⟩ text pair filters : List (Candidate Rat)).countP
      (fun c => Score.lt (similarity text v.sourceText * Score.ofNat 100) c.score) = 0 := by
    refine List.countP_eq_zero.mpr fun c hc => ?_
    obtain ⟨hscore, hle⟩ := hscored hc
    rw [Score.lt_iff_rat, hscore, hperfect, Score.ofNat_rat, not_lt]
    exact mul_le_mul_of_nonneg_right hle (Nat.cast_nonneg _)
  rw [Memory.ahead, hafter, Nat.add_zero]
  refine List.countP_congr fun c hc => ?_
  obtain ⟨hscore, hle⟩ := hscored hc
  rw [Score.le_iff_rat, hscore, hperfect, Score.ofNat_rat, decide_eq_true_iff,
    mul_le_mul_iff_of_pos_right (by norm_num), eq_comm, ← similarity_eq_one_iff]
  exact ⟨hle.antisymm, Eq.ge⟩

/-- The first perfect candidate makes an exact match. -/
theorem judge_of_isPerfect (text : Text) {candidates : List (Candidate Rat)}
    (h : ∃ c ∈ candidates, IsPerfect (e.adjust q) c) :
    ∃ found, e.judge text q candidates = .exact found ∧ found.score = 100 := by
  obtain ⟨front, c, rest, rfl, hc, -, hselect⟩ := select_of_isPerfect h
  have hscore : e.adjust q c = 100 :=
    (Penalties.adjust_le _ _ _ _).antisymm (Score.le_iff_rat.mp hc)
  refine ⟨.ofUnit c.unit (e.adjust q c), ?_, hscore⟩
  rw [judge, hselect]
  simp only [List.getElem?_append_right (Nat.le_refl _), Nat.sub_self, List.getElem?_cons_zero,
    if_true]

theorem bestMatch_of_retrieve {candidates : List (Candidate Rat)}
    (hblank : Text.isBlank text = false)
    (h : e.retrieve text q (candidateCap e.settings.candidateLimit q.minMatch) = .ok candidates) :
    e.bestMatch text q = .ok (e.judge text q candidates) := by
  rw [bestMatch, hblank, if_neg Bool.false_ne_true]
  change (e.retrieve text q _ >>= fun candidates => pure (e.judge text q candidates)) = _
  rw [h]
  rfl

/-- **An exact match within the cap is found**: if a stored unit that the search ranks and that the
query admits has the plain text of the query and loses no points, and fewer units with that plain
text were stored before it than are retrieved, the answer is exact. -/
theorem exact_answer (hbackend : e.backend = m.backend) (htokenizers : e.tokenizers? = none)
    (hblank : Text.isBlank text = false) (hunits : m.units = before ++ u :: after)
    (hranks : Memory.Ranks text q.pair q.searchFilters u v) (hadmits : q.admits v)
    (hplain : Markup.strip v.sourceText = Markup.strip text)
    (hkept : e.adjust q ⟨v, 100⟩ = 100)
    (hcap : ((Memory.eligible ⟨before⟩ text q.pair q.searchFilters : List (Candidate Rat)).countP
      fun c => Markup.strip c.unit.sourceText = Markup.strip text) <
        candidateCap e.settings.candidateLimit q.minMatch) :
    ∃ found, e.answer text q = .ok (.exact found) ∧ found.score = 100 := by
  rw [← ahead_of_strip_eq before after hplain] at hcap
  obtain ⟨candidates, hretrieve, hmem⟩ := mem_retrieved hbackend hunits hranks hadmits hcap
  have hperfect : IsPerfect (e.adjust q) (Memory.scored text v) := by
    have hscored : (Memory.scored text v : Candidate Rat) = ⟨v, 100⟩ := by
      rw [Memory.scored, similarity_eq_one_iff.mpr hplain.symm, one_mul]
      rfl
    rw [hscored, IsPerfect, Score.le_iff_rat, hkept]
    exact le_refl _
  obtain ⟨found, hjudge, hscore⟩ := judge_of_isPerfect text ⟨_, hmem, hperfect⟩
  refine ⟨found, ?_, hscore⟩
  rw [answer, bestMatch_of_retrieve hblank hretrieve, hjudge]
  show e.withQueryTags text q (.exact found) = _
  rw [withQueryTags, htokenizers]

/-! ### Properties that are compared too late -/

/-- The property that a query asks for. -/
def mexican : Properties := .ofList [("region".toList, "mx".toList)]

/-- A unit with the property. -/
def mexicanUnit : TranslationUnit :=
  { sampleUnit "Hello" "Buenas" with targetProperties := mexican }

/-- Two units with the text of the query, of which the second one has the property. -/
def regionalMemory : Memory := ⟨[sampleUnit "Hello" "Hola", mexicanUnit]⟩

/-- An engine for this memory with a limit of candidates. -/
def regionalEngine (limit : Nat) : Engine Rat :=
  { sampleEngine with backend := regionalMemory.backend, settings := ⟨1 / 5, limit, 10⟩ }

/-- A query for a perfect match with the property. -/
def regionalQuery : Query Rat :=
  { sampleQuery with minMatch := 100, targetProperties := mexican }

theorem ranks_mexicanUnit :
    Memory.Ranks "Hello".toList regionalQuery.pair regionalQuery.searchFilters mexicanUnit
      mexicanUnit where
  oriented := oriented_of_languages rfl rfl
  accepted := rfl
  sameLength := nofun

/-- With a limit of two the second unit is within the cap. -/
theorem exact_answer_sample :
    ∃ found, (regionalEngine 2).answer "Hello".toList regionalQuery = .ok (.exact found) ∧
      found.score = 100 := by
  have hunits : regionalMemory.units = [sampleUnit "Hello" "Hola"] ++ mexicanUnit :: [] := rfl
  refine exact_answer rfl rfl rfl hunits ranks_mexicanUnit ?_ ?_ ?_ ?_
  · decide +kernel
  · decide +kernel
  · decide +kernel
  · decide +kernel

/-- The one unit within a cap of one does not have the property. -/
theorem retrieve_regional :
    (regionalEngine 1).retrieve "Hello".toList regionalQuery 1 = .ok [] := by
  have heligible : regionalMemory.eligible "Hello".toList regionalQuery.pair
      regionalQuery.searchFilters =
        regionalMemory.units.map fun u => (⟨u, 100⟩ : Candidate Rat) := by
    with_unfolding_all rfl
  rw [retrieve_memory rfl, Memory.search_of_same_score 100 heligible (by simp)]
  rfl

/-- **A unit without the property pushes out an exact match.**  It takes up a cap of one, the
property is compared afterwards, and nothing is left although the other unit is an exact match. -/
theorem answer_crowded :
    (regionalEngine 1).backend = regionalMemory.backend ∧
      (regionalEngine 1).tokenizers?.isNone ∧ 1 ≤ (regionalEngine 1).settings.candidateLimit ∧
      Text.isBlank "Hello".toList = false ∧
      (∃ u ∈ regionalMemory.units, ∃ v,
        Memory.Ranks "Hello".toList regionalQuery.pair regionalQuery.searchFilters u v ∧
        regionalQuery.admits v ∧ Markup.strip v.sourceText = Markup.strip "Hello".toList ∧
        (regionalEngine 1).adjust regionalQuery ⟨v, 100⟩ = 100) ∧
      (regionalEngine 1).answer "Hello".toList regionalQuery = .ok .noCandidates := by
  refine ⟨rfl, rfl, by decide, rfl, ⟨mexicanUnit, by simp [regionalMemory], mexicanUnit,
    ranks_mexicanUnit, ?_, ?_, ?_⟩, ?_⟩
  · decide +kernel
  · decide +kernel
  · decide +kernel
  · have hretrieve : (regionalEngine 1).retrieve "Hello".toList regionalQuery
        (candidateCap (regionalEngine 1).settings.candidateLimit regionalQuery.minMatch) =
          .ok [] := by
      have hcap : candidateCap (regionalEngine 1).settings.candidateLimit regionalQuery.minMatch =
          1 := by
        decide +kernel
      rw [hcap]
      exact retrieve_regional
    have hbest : (regionalEngine 1).bestMatch "Hello".toList regionalQuery = .ok .noCandidates :=
      bestMatch_of_retrieve rfl hretrieve
    rw [answer, hbest]
    rfl

end Engine

end Bitext
