import Bitext.Proofs.Text.Order
import Bitext.Unit.Properties

/-!
# Lookup in properties

What a key has after a value was put, and after a list of entries was put one after another.

## Main results

* `Properties.get?_insert`: putting a value changes its key and no other
* `Properties.get?_ofList`: entries with distinct keys are all there
* `Properties.ofList_entries`: properties are built again from their own entries
-/

namespace Bitext

variable {key value : Text} {es : List (Text × Text)}

namespace Properties

/-! ## Putting -/

theorem lookup_cons_eq (e : Text × Text) (es : List (Text × Text)) (k : Text) :
    (e :: es).lookup k = if k = e.1 then some e.2 else es.lookup k := by
  rw [List.lookup_cons]
  by_cases hk : k = e.1
  · rw [if_pos hk, beq_iff_eq.mpr hk]
  · rw [if_neg hk, beq_eq_false_iff_ne.mpr hk]

theorem lookup_insertEntry (key value : Text) (es : List (Text × Text)) (k : Text) :
    (insertEntry key value es).lookup k = if k = key then some value else es.lookup k := by
  induction es with
  | nil => rw [insertEntry, lookup_cons_eq]
  | cons e es ih =>
    obtain ⟨k', v'⟩ := e
    rw [insertEntry]
    -- The entry takes the place of one with its key, goes in front of later ones, or goes on.
    split
    · rename_i hsame
      subst hsame
      rw [lookup_cons_eq, lookup_cons_eq]
      split <;> rfl
    split
    · rw [lookup_cons_eq]
    · rename_i hother _
      rw [lookup_cons_eq, ih, lookup_cons_eq]
      by_cases hk : k = k'
      · rw [if_pos hk, if_neg (hk ▸ Ne.symm hother), if_pos hk]
      · rw [if_neg hk, if_neg hk]

/-- **Putting a value changes what its key has, and nothing else.** -/
theorem get?_insert (p : Properties) (key value k : Text) :
    (p.insert key value).get? k = if k = key then some value else p.get? k :=
  lookup_insertEntry key value p.entries k

/-- A key that comes after all others goes to the end. -/
theorem insertEntry_of_last (h : ∀ e ∈ es, Text.precedes e.1 key = true) :
    insertEntry key value es = es ++ [(key, value)] := by
  induction es with
  | nil => rfl
  | cons e es ih =>
    have hfirst := h e List.mem_cons_self
    rw [insertEntry, if_neg (Text.ne_of_precedes hfirst), if_neg, ih, List.cons_append]
    · exact fun e he => h e (List.mem_cons_of_mem _ he)
    · rw [Text.not_precedes_of_precedes hfirst]
      exact Bool.false_ne_true

/-! ## Lists of entries -/

theorem entries_foldl_insert (p : Properties) (h : Increasing (p.entries ++ es)) :
    (es.foldl (fun p e => p.insert e.1 e.2) p).entries = p.entries ++ es := by
  induction es generalizing p with
  | nil => rw [List.foldl_nil, List.append_nil]
  | cons e es ih =>
    have hlast : ∀ f ∈ p.entries, Text.precedes f.1 e.1 = true := fun f hf =>
      (List.pairwise_append.mp h).2.2 f hf e List.mem_cons_self
    have hentries : (p.insert e.1 e.2).entries = p.entries ++ [e] := insertEntry_of_last hlast
    have hjoin : p.entries ++ e :: es = p.entries ++ [e] ++ es := by
      rw [List.append_assoc, List.singleton_append]
    rw [hjoin, ← hentries] at h
    rw [List.foldl_cons, ih _ h, hentries, hjoin]

/-- **Properties are built again from their own entries.** -/
theorem ofList_entries (p : Properties) : ofList p.entries = p :=
  ext (entries_foldl_insert empty p.increasing)

theorem get?_foldl_insert (p : Properties) (h : (es.map Prod.fst).Nodup) (k : Text) :
    (es.foldl (fun p e => p.insert e.1 e.2) p).get? k = (es.lookup k).or (p.get? k) := by
  induction es generalizing p with
  | nil => rfl
  | cons e es ih =>
    rw [List.map_cons, List.nodup_cons] at h
    rw [List.foldl_cons, ih _ h.2, get?_insert, lookup_cons_eq]
    by_cases hk : k = e.1
    -- Later entries have other keys, so they change nothing any more.
    · have hnone : es.lookup k = none := by
        rw [List.lookup_eq_none_iff]
        intro f hf
        rw [bne_iff_ne, hk]
        intro hsame
        exact h.1 (hsame ▸ List.mem_map_of_mem hf)
      rw [hnone, if_pos hk, if_pos hk, Option.none_or, Option.some_or]
    · rw [if_neg hk, if_neg hk]

/-- **Entries with distinct keys are all there.** -/
theorem get?_ofList (h : (es.map Prod.fst).Nodup) (k : Text) :
    (ofList es).get? k = es.lookup k := by
  rw [ofList, get?_foldl_insert empty h]
  exact Option.or_none

end Properties

end Bitext
