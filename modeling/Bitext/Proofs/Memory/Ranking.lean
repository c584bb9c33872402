import Bitext.Proofs.Memory.Search
import Mathlib.Data.List.Nodup

/-!
# The ranking behind a search

A search sorts candidates, which do not know where their units are stored.  The ranking behind it
lists them together with these places.  The place tells two stored units with equal texts apart,
and it decides between equal scores.  There is one ranking for a query only, and a search finds its
first entries.

## Main definitions

* `Memory.IsRanking`: what is said of a ranking.
* `Memory.ranked`: the ranking that sorting makes.

## Main results

* `IsRanking.eq`: there is one ranking only
* `isRanking_of_perm`, `isRanking_ranked`: it is reached by sorting
* `search_eq_take`: a search finds the first entries of the ranking
-/

namespace Bitext

namespace Memory

variable {α : Type} [Score α]

/-! ## Rankings -/

/-- Candidates with the places of their units are ranked: every stored unit that the search ranks is
listed once, with its own similarity to the query, no score is below a later one, and equal scores
stand in the order of storage. -/
structure IsRanking (m : Memory) (query : Text) (pair : LanguagePair) (filters : SearchFilters)
    (ranking : List (Candidate α × Nat)) : Prop where
  mem_iff : ∀ c place, (c, place) ∈ ranking ↔
    ∃ u v, m.units[place]? = some u ∧ Ranks query pair filters u v ∧ c = scored query v
  nodup : (ranking.map Prod.snd).Nodup
  ordered : ranking.Pairwise fun a b =>
    Score.le b.1.score a.1.score ∧ (Score.le a.1.score b.1.score → a.2 < b.2)

variable {m : Memory} {query : Text} {pair : LanguagePair} {filters : SearchFilters}
  {ranking other : List (Candidate α × Nat)}

/-- **There is one ranking only**: the order leaves no choice between two entries. -/
theorem IsRanking.eq (h : m.IsRanking query pair filters ranking)
    (hother : m.IsRanking query pair filters other) : ranking = other := by
  have hperm : ranking.Perm other := by
    refine (List.perm_ext_iff_of_nodup (List.Nodup.of_map _ h.nodup)
      (List.Nodup.of_map _ hother.nodup)).mpr ?_
    rintro ⟨c, place⟩
    rw [h.mem_iff, hother.mem_iff]
  refine hperm.eq_of_pairwise ?_ h.ordered hother.ordered
  rintro a b - - ⟨hle, htie⟩ ⟨hle', htie'⟩
  exact absurd (htie hle') (Nat.lt_asymm (htie' hle))

/-! ## The ranking that sorting makes -/

/-- The candidates of a search with the places of their units, in the order of storage. -/
def placed (m : Memory) (query : Text) (pair : LanguagePair) (filters : SearchFilters) :
    List (Candidate α × Nat) :=
  m.units.zipIdx.filterMap fun p => (rank? query pair filters p.1).map (scored query ·, p.2)

theorem mem_placed {c : Candidate α} {place : Nat} :
    (c, place) ∈ m.placed query pair filters ↔
      ∃ u v, m.units[place]? = some u ∧ Ranks query pair filters u v ∧ c = scored query v := by
  simp only [placed, List.mem_filterMap, Prod.exists, List.mem_zipIdx_iff_getElem?,
    Option.map_eq_some_iff, rank?_eq_some_iff, Prod.mk.injEq]
  constructor
  · rintro ⟨u, i, hu, v, hv, rfl, rfl⟩
    exact ⟨u, v, hu, hv, rfl⟩
  · rintro ⟨u, v, hu, hv, rfl⟩
    exact ⟨u, place, hu, v, hv, rfl, rfl⟩

/-- The places increase. -/
theorem pairwise_placed : (m.placed query pair filters : List (Candidate α × Nat)).Pairwise
    fun a b => a.2 < b.2 := by
  have hplaces : m.units.zipIdx.Pairwise fun a b => a.2 < b.2 := by
    have hrange : (m.units.zipIdx.map Prod.snd).Pairwise (· < ·) := by
      rw [List.zipIdx_map_snd]
      exact List.pairwise_lt_range'
    exact List.pairwise_map.mp hrange
  refine hplaces.filterMap _ ?_
  rintro ⟨u, i⟩ ⟨w, j⟩ hlt a ha b hb
  obtain ⟨v, -, rfl⟩ := Option.map_eq_some_iff.mp ha
  obtain ⟨x, -, rfl⟩ := Option.map_eq_some_iff.mp hb
  exact hlt

/-- Without the places, these are the candidates that a search sorts. -/
theorem map_fst_placed : (m.placed query pair filters).map Prod.fst =
    (m.eligible query pair filters : List (Candidate α)) := by
  rw [placed, eligible_eq, List.map_filterMap, List.map_filterMap]
  conv_rhs => rw [← List.zipIdx_map_fst 0 m.units, List.filterMap_map]
  refine List.filterMap_congr fun p _ => ?_
  rw [Option.map_map]
  rfl

/-- The same candidates in the order of a ranking are the ranking. -/
theorem isRanking_of_perm (hperm : ranking.Perm (m.placed query pair filters))
    (hordered : ranking.Pairwise fun a b =>
      Score.le b.1.score a.1.score ∧ (Score.le a.1.score b.1.score → a.2 < b.2)) :
    m.IsRanking query pair filters ranking where
  mem_iff c place := by
    rw [hperm.mem_iff, mem_placed]
  nodup := by
    refine (hperm.map Prod.snd).nodup_iff.mpr (List.pairwise_map.mpr (pairwise_placed.imp ?_))
    intro a b hlt
    exact Nat.ne_of_lt hlt
  ordered := hordered

/-- The candidates of a search with the places of their units, sorted as the search sorts them. -/
def ranked (m : Memory) (query : Text) (pair : LanguagePair) (filters : SearchFilters) :
    List (Candidate α × Nat) :=
  (m.placed query pair filters).mergeSort fun a b => !Score.lt a.1.score b.1.score

theorem search_eq_map_fst_ranked (limit : Nat) :
    m.search query pair filters limit =
      ((m.ranked query pair filters : List (Candidate α × Nat)).take limit).map Prod.fst := by
  have hsorted : (m.ranked query pair filters : List (Candidate α × Nat)).map Prod.fst =
      ((m.placed query pair filters).map Prod.fst).mergeSort fun a b => !Score.lt a.score b.score :=
    List.map_mergeSort fun _ _ _ _ => rfl
  rw [search, List.map_take, hsorted, map_fst_placed]

variable [LawfulScore α]

/-- Sorting makes the ranking, if every similarity is a number. -/
theorem isRanking_ranked (hnumber : ∀ u ∈ m.units, ∀ v, Ranks query pair filters u v →
    Score.IsNumber (scored query v : Candidate α).score) :
    m.IsRanking query pair filters (m.ranked query pair filters : List (Candidate α × Nat)) := by
  refine isRanking_of_perm (List.mergeSort_perm _ _) ?_
  refine Score.pairwise_mergeSort_score (fun p : Candidate α × Nat => p.1.score) ?_
    pairwise_placed
  rintro ⟨c, place⟩ hc
  obtain ⟨u, v, hu, hv, rfl⟩ := mem_placed.mp hc
  exact hnumber u (List.mem_of_getElem? hu) v hv

/-! ## Searches -/

/-- **A search finds the first entries of the ranking**, as many as the limit allows: candidates
with their own similarity to the query, no stored unit twice, and none that scores less than a unit
that is left out. -/
theorem search_eq_take (hnumber : ∀ u ∈ m.units, ∀ v, Ranks query pair filters u v →
    Score.IsNumber (scored query v : Candidate α).score) (limit : Nat) :
    ∃ ranking : List (Candidate α × Nat), m.IsRanking query pair filters ranking ∧
      (∀ other : List (Candidate α × Nat),
        m.IsRanking query pair filters other → other = ranking) ∧
      m.search query pair filters limit = (ranking.take limit).map Prod.fst ∧
      ((ranking.take limit).map Prod.snd).Nodup ∧
      (∀ c ∈ (m.search query pair filters limit : List (Candidate α)),
        c.score = similarity query c.unit.sourceText * Score.ofNat 100) ∧
      ∀ found ∈ ranking.take limit, ∀ left ∈ ranking, left ∉ ranking.take limit →
        Score.le left.1.score found.1.score := by
  have hranking := isRanking_ranked hnumber
  refine ⟨m.ranked query pair filters, hranking, fun other hother => hother.eq hranking,
    search_eq_map_fst_ranked limit, ?_, ?_, ?_⟩
  · rw [List.map_take]
    exact hranking.nodup.sublist (List.take_sublist limit _)
  · intro c hc
    obtain ⟨v, rfl⟩ := exists_scored_of_mem_eligible
      (List.mem_mergeSort.mp (List.mem_of_mem_take hc))
    rfl
  · intro found hfound left hleft hnot
    have hordered := hranking.ordered
    rw [← List.take_append_drop limit (m.ranked query pair filters)] at hordered hleft
    have hbehind := (List.mem_append.mp hleft).resolve_left hnot
    exact ((List.pairwise_append.mp hordered).2.2 found hfound left hbehind).1

/-! ### Equal texts in both directions -/

/-- A unit from English to Spanish. -/
def englishUnit (source target : String) : TranslationUnit where
  sourceText := source.toList
  targetText := target.toList
  sourceLanguage := "en".toList
  targetLanguage := "es".toList

/-- A unit that resembles the text `Hello`, and two that have it, one of them as its target. -/
def tiedMemory : Memory where
  units := [englishUnit "Hallo" "Hola", (englishUnit "Hello" "Buenas").reversed,
    englishUnit "Hello" "Hola"]

/-- The two units with the text are in front, in the order in which they are stored. -/
def tiedRanking : List (Candidate Rat × Nat) :=
  [(⟨englishUnit "Hello" "Buenas", 100⟩, 1), (⟨englishUnit "Hello" "Hola", 100⟩, 2),
    (⟨englishUnit "Hallo" "Hola", 80⟩, 0)]

theorem isRanking_tiedRanking :
    tiedMemory.IsRanking "Hello".toList ⟨"en".toList, "es".toList⟩ {} tiedRanking := by
  refine isRanking_of_perm ?_ (by decide +kernel)
  have hplaced : tiedMemory.placed "Hello".toList ⟨"en".toList, "es".toList⟩ {} =
      tiedRanking.drop 2 ++ tiedRanking.take 2 := by
    with_unfolding_all rfl
  have hperm : (tiedRanking.take 2 ++ tiedRanking.drop 2).Perm
      (tiedRanking.drop 2 ++ tiedRanking.take 2) := List.perm_append_comm
  rwa [List.take_append_drop, ← hplaced] at hperm

/-- A search for two candidates finds the first two of this ranking. -/
theorem search_eq_take_tiedMemory :
    (tiedMemory.search "Hello".toList ⟨"en".toList, "es".toList⟩ {} 2 : List (Candidate Rat)) =
      [⟨englishUnit "Hello" "Buenas", 100⟩, ⟨englishUnit "Hello" "Hola", 100⟩] := by
  have hnumber : ∀ u ∈ tiedMemory.units, ∀ v,
      Ranks "Hello".toList ⟨"en".toList, "es".toList⟩ {} u v →
        Score.IsNumber (scored "Hello".toList v : Candidate Rat).score :=
    fun _ _ _ _ => Score.isNumber_rat _
  obtain ⟨ranking, -, hunique, hsearch, -⟩ := search_eq_take hnumber 2
  rw [hsearch, ← hunique tiedRanking isRanking_tiedRanking]
  rfl

end Memory

end Bitext
