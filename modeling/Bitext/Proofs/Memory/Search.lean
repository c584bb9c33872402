import Bitext.Proofs.Score.Order
import Bitext.Query.Basic

/-!
# The place of a unit in a search

A search ranks the units of a pair that pass its filters and cuts the ranking at a limit.  Whether a
unit is found depends on nothing but the number of units in front of it: those that are more similar
to the query, and those that are as similar and were stored earlier.

## Main definitions

* `Memory.Ranks`: the search of a query ranks a stored unit.
* `Memory.ahead`: how many units rank in front of it.

## Main results

* `mem_search`: a unit with few units in front of it is found
* `retrieve_memory`: what is retrieved from a memory
-/

namespace Bitext

namespace Memory

variable {α : Type} [Score α]

/-! ## The units that a search ranks -/

/-- A search for a query ranks the stored unit `u`, which is `v` as seen from the pair. -/
structure Ranks (query : Text) (pair : LanguagePair) (filters : SearchFilters)
    (u v : TranslationUnit) : Prop where
  oriented : u.oriented? pair = some v
  accepted : filters.accepts v
  sameLength : filters.exactLength → Markup.wordCount v.sourceText = Markup.wordCount query

/-- The stored unit as a search for the query ranks it, if it does. -/
def rank? (query : Text) (pair : LanguagePair) (filters : SearchFilters) (u : TranslationUnit) :
    Option TranslationUnit :=
  (u.oriented? pair).filter fun v => filters.accepts v &&
    (!filters.exactLength || Markup.wordCount v.sourceText == Markup.wordCount query)

theorem rank?_eq_some_iff {u v : TranslationUnit} :
    rank? query pair filters u = some v ↔ Ranks query pair filters u v := by
  rw [rank?, Option.filter_eq_some_iff, Bool.and_eq_true, Bool.or_eq_true, Bool.not_eq_true',
    beq_iff_eq]
  constructor
  · rintro ⟨horiented, haccepted, hlength⟩
    exact ⟨horiented, haccepted, fun hexact => hlength.resolve_left (by simp [hexact])⟩
  · intro h
    refine ⟨h.oriented, h.accepted, ?_⟩
    cases hexact : filters.exactLength with
    | false => exact .inl rfl
    | true => exact .inr (h.sameLength hexact)

/-- A unit with its similarity to a query in percent. -/
def scored (query : Text) (v : TranslationUnit) : Candidate α :=
  ⟨v, similarity query v.sourceText * Score.ofNat 100⟩

section Eligible

variable {query : Text} {pair : LanguagePair} {filters : SearchFilters}

theorem eligible_eq (m : Memory) : (m.eligible query pair filters : List (Candidate α)) =
    (m.units.filterMap (rank? query pair filters)).map (scored query) := by
  rw [eligible, matching, List.filter_filter, List.filter_filterMap]
  refine congrArg (List.map _) (List.filterMap_congr fun u _ => ?_)
  refine congrArg (Option.filter · _) (funext fun v => ?_)
  exact Bool.and_comm _ _

/-- Units are ranked whatever units are stored before them and after them. -/
theorem eligible_append (before after : List TranslationUnit) :
    (eligible ⟨before ++ after⟩ query pair filters : List (Candidate α)) =
      eligible ⟨before⟩ query pair filters ++ eligible ⟨after⟩ query pair filters := by
  simp only [eligible_eq, List.filterMap_append, List.map_append]

theorem eligible_cons {u v : TranslationUnit} (h : Ranks query pair filters u v)
    (after : List TranslationUnit) :
    (eligible ⟨u :: after⟩ query pair filters : List (Candidate α)) =
      scored query v :: eligible ⟨after⟩ query pair filters := by
  rw [eligible_eq, eligible_eq, List.filterMap_cons_some (rank?_eq_some_iff.mpr h), List.map_cons]

theorem exists_scored_of_mem_eligible {m : Memory} {c : Candidate α}
    (h : c ∈ m.eligible query pair filters) : ∃ v, c = scored query v := by
  obtain ⟨v, -, rfl⟩ := List.mem_map.mp h
  exact ⟨v, rfl⟩

end Eligible

/-! ## Units in front of a unit -/

/-- How many units rank in front of one with the given score that is stored between `before` and
`after`: those stored earlier that score as much, and those stored later that score more. -/
def ahead (query : Text) (pair : LanguagePair) (filters : SearchFilters)
    (before after : List TranslationUnit) (score : α) : Nat :=
  (eligible ⟨before⟩ query pair filters).countP (Score.le score ·.score) +
    (eligible ⟨after⟩ query pair filters).countP (Score.lt score ·.score)

/-- **A unit is found** if fewer units than the limit rank in front of it. -/
theorem mem_search {query : Text} {pair : LanguagePair} {filters : SearchFilters}
    {before after : List TranslationUnit} {u v : TranslationUnit} {limit : Nat}
    (hranks : Ranks query pair filters u v)
    (hahead : ahead query pair filters before after
      (similarity query v.sourceText * Score.ofNat 100 : Rat) < limit) :
    scored query v ∈
      (search ⟨before ++ u :: after⟩ query pair filters limit : List (Candidate Rat)) := by
  have htrans (a b c : Candidate Rat) (hab : !Score.lt a.score b.score)
      (hbc : !Score.lt b.score c.score) : (!Score.lt a.score c.score) = true := by
    rw [Score.not_lt_rat] at hab hbc ⊢
    exact hbc.trans hab
  have htotal (a b : Candidate Rat) :
      (!Score.lt a.score b.score || !Score.lt b.score a.score) = true := by
    rw [Bool.or_eq_true, Score.not_lt_rat, Score.not_lt_rat]
    exact le_total b.score a.score
  obtain ⟨l₁, l₂, hsorted, hlength⟩ := List.exists_mergeSort_append_cons htrans htotal
    (eligible ⟨before⟩ query pair filters) (scored query v) (eligible ⟨after⟩ query pair filters)
  have hplace : l₁.length < limit := by
    refine lt_of_eq_of_lt ?_ hahead
    rw [hlength, ahead]
    congr 1
    · refine List.countP_congr fun c _ => ?_
      rw [Score.not_lt_rat, Score.le_iff_rat]
      rfl
    · refine List.countP_congr fun c _ => ?_
      rw [Bool.not_not]
      rfl
  rw [search, eligible_append, eligible_cons hranks, hsorted]
  refine List.mem_take_iff_getElem.mpr ⟨l₁.length, by simp; omega, by simp⟩

/-- Units that are all as similar to the query are found in the order in which they were stored. -/
theorem search_of_same_score {m : Memory} {query : Text} {pair : LanguagePair}
    {filters : SearchFilters} {found : List (Candidate Rat)} (score : Rat)
    (heligible : m.eligible query pair filters = found) (h : ∀ c ∈ found, c.score = score)
    (limit : Nat) : m.search query pair filters limit = found.take limit := by
  have hsorted : found.Pairwise fun a b => (!Score.lt a.score b.score) = true := by
    refine List.pairwise_of_forall_mem_list fun a ha b hb => ?_
    rw [Score.not_lt_rat, h a ha, h b hb]
  rw [search, heligible, List.mergeSort_of_pairwise hsorted]

end Memory

/-! ## What is retrieved -/

/-- **What is retrieved from a memory** is what the search finds and the query admits: the
similarity to the query is the score already. -/
theorem Engine.retrieve_memory {α : Type} [Score α] {m : Memory} {e : Engine α}
    (h : e.backend = m.backend) (text : Text) (q : Query α) (limit : Nat) :
    e.retrieve text q limit =
      .ok ((m.search text q.pair q.searchFilters limit).filter (q.admits ·.unit)) := by
  have hscored : ∀ c ∈ (m.search text q.pair q.searchFilters limit).filter (q.admits ·.unit),
      (Memory.scored text c.unit : Candidate α) = c := by
    intro c hc
    have hc := List.mem_of_mem_take (List.mem_filter.mp hc).1
    obtain ⟨v, rfl⟩ := Memory.exists_scored_of_mem_eligible (List.mem_mergeSort.mp hc)
    rfl
  rw [Engine.retrieve, h]
  exact congrArg Except.ok ((List.map_congr_left hscored).trans (List.map_id _))

end Bitext
