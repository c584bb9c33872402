import Bitext.Batch
import Mathlib.Algebra.Order.Floor.Div

/-!
# What batches hold

Batches cut the items that are not blank into pieces of one size, in order; only the last piece may
be shorter, and no piece is empty.  A batch that is full ends with the last item that was read for
it, so whoever pulls batches one by one reads no further than their items.

## Main definitions

* `Takes`: what one batch takes of its source, and what it leaves.
* `IsCut`: lists of which all but the last have a given length.
* `totals`: how many items have been met by the end of each batch.

## Main results

* `fill_spec`: one batch
* `flatten_all`, `isCut_all`: all batches
* `fst_pull`, `exists_last_of_pull`: batches that are pulled one by one
* `all_spec`: all batches, and what is read for each
* `IsCut.length_eq`: how many batches there are
* `pairwise_totals`, `getLast_totals`: the totals grow up to the number of all items
-/

namespace Bitext.Batch

variable {α : Type} {isBlank : α → Bool} {size n : Nat} {batches : List (List α)}

/-! ## One batch -/

/-- The batch has all items that are not blank of the part before what is left, at most as many as
there is room for, and nothing is left if it has fewer. -/
structure Takes (isBlank : α → Bool) (room : Nat) (source batch left : List α) : Prop where
  source_eq : ∃ passed, source = passed ++ left ∧ batch = passed.filter (!isBlank ·)
  length_le : batch.length ≤ room
  left_eq_nil : batch.length < room → left = []

/-- **One batch** takes the items that are not blank from the front of the source, and it is shorter
than it may be only where the source ends. -/
theorem fill_spec (isBlank : α → Bool) (room : Nat) (source : List α) :
    Takes isBlank room source (fill isBlank room source).1 (fill isBlank room source).2 := by
  induction source generalizing room with
  | nil => cases room <;> exact ⟨⟨[], rfl, rfl⟩, Nat.zero_le _, fun _ => rfl⟩
  | cons item rest ih =>
    cases room with
    | zero => exact ⟨⟨[], rfl, rfl⟩, Nat.le_refl 0, fun h => absurd h (Nat.lt_irrefl 0)⟩
    | succ room =>
      rw [fill]
      -- A blank item is passed over, any other one is taken.
      split
      · rename_i hblank
        obtain ⟨⟨passed, hsource, hbatch⟩, hlength, hleft⟩ := ih (room + 1)
        refine ⟨⟨item :: passed, congrArg (item :: ·) hsource, ?_⟩, hlength, hleft⟩
        rw [List.filter_cons_of_neg (by simpa using hblank)]
        exact hbatch
      · rename_i hblank
        obtain ⟨⟨passed, hsource, hbatch⟩, hlength, hleft⟩ := ih room
        refine ⟨⟨item :: passed, congrArg (item :: ·) hsource, ?_⟩, Nat.succ_le_succ hlength,
          fun h => hleft (Nat.lt_of_succ_lt_succ h)⟩
        rw [List.filter_cons_of_pos (by simpa using hblank)]
        exact congrArg (item :: ·) hbatch

/-- **A full batch ends with the last item that was read**: what is left begins right behind it. -/
theorem exists_last_of_fill {room : Nat} {source : List α} (hroom : 0 < room)
    (h : (fill isBlank room source).1.length = room) :
    ∃ passed last, source = passed ++ last :: (fill isBlank room source).2 ∧
      (fill isBlank room source).1.getLast? = some last := by
  induction source generalizing room with
  | nil =>
    cases room with
    | zero => exact absurd hroom (Nat.lt_irrefl 0)
    | succ room => cases h
  | cons item rest ih =>
    cases room with
    | zero => exact absurd hroom (Nat.lt_irrefl 0)
    | succ room =>
      rw [fill] at h ⊢
      cases hblank : isBlank item with
      | true =>
        simp only [hblank, if_true] at h ⊢
        obtain ⟨passed, last, hsource, hlast⟩ := ih hroom h
        exact ⟨item :: passed, last, congrArg (item :: ·) hsource, hlast⟩
      | false =>
        simp only [hblank, Bool.false_eq_true, if_false, List.length_cons] at h ⊢
        cases room with
        -- The item is the last one that there is room for, and the rest is left as it is.
        | zero => cases rest <;> exact ⟨[], item, rfl, rfl⟩
        | succ room =>
          obtain ⟨passed, last, hsource, hlast⟩ := ih (Nat.succ_pos room) (Nat.succ.inj h)
          refine ⟨item :: passed, last, congrArg (item :: ·) hsource, ?_⟩
          rw [List.getLast?_cons, hlast]
          rfl

/-! ## All batches -/

/-- All lists but the last one have the given length, and the last one is not longer, nor empty. -/
inductive IsCut (size : Nat) : List (List α) → Prop where
  | nil : IsCut size []
  | last {batch : List α} (hpos : 0 < batch.length) (hle : batch.length ≤ size) :
      IsCut size [batch]
  | cons {batch : List α} {batches : List (List α)} (hfull : batch.length = size)
      (h : IsCut size batches) : IsCut size (batch :: batches)

/-- An empty source has no batches. -/
theorem pull_nil (isBlank : α → Bool) (size n : Nat) : pull isBlank size n [] = ([], []) := by
  cases n with
  | zero => rfl
  | succ n =>
    have hfill : fill isBlank (max size 1) [] = ([], []) := by cases max size 1 <;> rfl
    rw [pull, hfill]
    rfl

/-- Batches that are pulled until the source ends. -/
theorem pull_spec {source : List α} (h : source.length < n) :
    (pull isBlank size n source).1.flatten = source.filter (!isBlank ·) ∧
      IsCut (max size 1) (pull isBlank size n source).1 := by
  induction n generalizing source with
  | zero => exact absurd h (Nat.not_lt_zero _)
  | succ n ih =>
    have hsize : 0 < max size 1 := Nat.lt_of_lt_of_le Nat.one_pos (Nat.le_max_right size 1)
    rw [pull]
    cases hfill : fill isBlank (max size 1) source with
    | mk batch left =>
      have htakes := fill_spec isBlank (max size 1) source
      simp only [hfill] at htakes
      obtain ⟨⟨passed, rfl, hbatch⟩, hle, hleft⟩ := htakes
      have hkept : (passed ++ left).filter (!isBlank ·) = batch ++ left.filter (!isBlank ·) := by
        rw [hbatch, List.filter_append]
      simp only
      split
      · -- An empty batch ends the pulling, and nothing is left for another one.
        rename_i hempty
        obtain rfl : batch = [] := List.isEmpty_iff.mp hempty
        obtain rfl : left = [] := hleft hsize
        exact ⟨hkept.symm, .nil⟩
      · rename_i hnonempty
        have hpos : 0 < batch.length := List.length_pos_iff.mpr (by simpa using hnonempty)
        have hshorter : left.length < n := by
          have hpassed : batch.length ≤ passed.length := hbatch ▸ List.length_filter_le _ _
          rw [List.length_append] at h
          omega
        obtain ⟨hflatten, hcut⟩ := ih hshorter
        refine ⟨by rw [List.flatten_cons, hflatten, hkept], ?_⟩
        rcases Nat.lt_or_eq_of_le hle with hshort | hfull
        · rw [hleft hshort, pull_nil]
          exact .last hpos hle
        · exact .cons hfull hcut

/-- **The batches hold all items that are not blank**, in order. -/
theorem flatten_all (isBlank : α → Bool) (size : Nat) (source : List α) :
    (all isBlank size source).flatten = source.filter (!isBlank ·) :=
  (pull_spec (Nat.lt_succ_self source.length)).1

theorem isCut_all (isBlank : α → Bool) (size : Nat) (source : List α) :
    IsCut (max size 1) (all isBlank size source) :=
  (pull_spec (Nat.lt_succ_self source.length)).2

namespace IsCut

theorem length_of_mem_dropLast (h : IsCut size batches) :
    ∀ batch ∈ batches.dropLast, batch.length = size := by
  induction h with
  | nil => exact fun _ h => absurd h List.not_mem_nil
  | last _ _ => exact fun _ h => absurd h List.not_mem_nil
  | @cons batch batches hfull h ih =>
    cases h with
    | nil => exact fun _ h => absurd h List.not_mem_nil
    | last | cons =>
      rw [List.dropLast_cons_of_ne_nil (List.cons_ne_nil _ _)]
      exact List.forall_mem_cons.mpr ⟨hfull, ih⟩

theorem length_le (h : IsCut size batches) : ∀ batch ∈ batches, batch.length ≤ size := by
  induction h with
  | nil => exact fun _ h => absurd h List.not_mem_nil
  | last _ hle => exact fun _ h => List.mem_singleton.mp h ▸ hle
  | cons hfull _ ih => exact List.forall_mem_cons.mpr ⟨Nat.le_of_eq hfull, ih⟩

theorem length_pos (h : IsCut size batches) (hsize : 0 < size) :
    ∀ batch ∈ batches, 0 < batch.length := by
  induction h with
  | nil => exact fun _ h => absurd h List.not_mem_nil
  | last hpos _ => exact fun _ h => List.mem_singleton.mp h ▸ hpos
  | cons hfull _ ih => exact List.forall_mem_cons.mpr ⟨hfull ▸ hsize, ih⟩

/-- **The number of batches** is that of their items divided by the size, rounded up. -/
theorem length_eq (h : IsCut size batches) (hsize : 0 < size) :
    batches.length = batches.flatten.length ⌈/⌉ size := by
  induction h with
  | nil => exact (zero_ceilDiv size).symm
  | @last batch hpos hle =>
    have hone : (batch.length + size - 1) / size = 1 :=
      Nat.div_eq_of_lt_le (by omega) (by omega)
    rw [List.flatten_singleton, Nat.ceilDiv_eq_add_pred_div, hone, List.length_singleton]
  | @cons batch batches hfull _ ih =>
    have hmore : size + batches.flatten.length + size - 1 =
        batches.flatten.length + size - 1 + size := by omega
    rw [List.length_cons, ih, List.flatten_cons, List.length_append, hfull,
      Nat.ceilDiv_eq_add_pred_div, Nat.ceilDiv_eq_add_pred_div, hmore,
      Nat.add_div_right _ hsize]

end IsCut

/-! ## Batch by batch -/

section Pulling

variable {source : List α}

theorem max_one_pos (size : Nat) : 0 < max size 1 :=
  Nat.lt_of_lt_of_le Nat.one_pos (Nat.le_max_right size 1)

/-- Where nothing is filled, the pulling ends. -/
theorem pull_succ_of_eq_nil (h : (fill isBlank (max size 1) source).1 = []) (n : Nat) :
    pull isBlank size (n + 1) source = ([], (fill isBlank (max size 1) source).2) := by
  rw [pull]
  simp only [h, List.isEmpty_nil, if_true]

/-- One batch is filled, and the others are pulled from what it leaves. -/
theorem pull_succ_of_ne_nil (h : (fill isBlank (max size 1) source).1 ≠ []) (n : Nat) :
    pull isBlank size (n + 1) source =
      ((fill isBlank (max size 1) source).1 ::
          (pull isBlank size n (fill isBlank (max size 1) source).2).1,
        (pull isBlank size n (fill isBlank (max size 1) source).2).2) := by
  rw [pull]
  simp only [List.isEmpty_iff, h, if_false]

/-- How many batches are pulled does not change the first of them. -/
theorem take_pull {m : Nat} (h : n ≤ m) (source : List α) :
    (pull isBlank size m source).1.take n = (pull isBlank size n source).1 := by
  induction n generalizing m source with
  | zero => rfl
  | succ n ih =>
    obtain ⟨m, rfl⟩ := Nat.exists_eq_add_of_le' (Nat.le_trans (Nat.le_add_left 1 n) h)
    by_cases hnil : (fill isBlank (max size 1) source).1 = []
    · rw [pull_succ_of_eq_nil hnil, pull_succ_of_eq_nil hnil, List.take_nil]
    · rw [pull_succ_of_ne_nil hnil, pull_succ_of_ne_nil hnil, List.take_succ_cons,
        ih (Nat.le_of_succ_le_succ h)]

/-- The items that have been read when batches are pulled are those in the batches, and blanks. -/
theorem exists_read_of_pull (isBlank : α → Bool) (size n : Nat) (source : List α) :
    ∃ passed, source = passed ++ (pull isBlank size n source).2 ∧
      (pull isBlank size n source).1.flatten = passed.filter (!isBlank ·) := by
  induction n generalizing source with
  | zero => exact ⟨[], rfl, rfl⟩
  | succ n ih =>
    obtain ⟨⟨passed, hsource, hbatch⟩, -, -⟩ := fill_spec isBlank (max size 1) source
    by_cases hnil : (fill isBlank (max size 1) source).1 = []
    · rw [pull_succ_of_eq_nil hnil]
      exact ⟨passed, hsource, hnil.symm.trans hbatch⟩
    · rw [pull_succ_of_ne_nil hnil]
      obtain ⟨more, hleft, hmore⟩ := ih (fill isBlank (max size 1) source).2
      refine ⟨passed ++ more, ?_, ?_⟩
      · rw [List.append_assoc, ← hleft]
        exact hsource
      · rw [List.filter_append, ← hbatch, ← hmore]
        rfl

/-- There are no more batches than items. -/
theorem length_pull_le (isBlank : α → Bool) (size n : Nat) (source : List α) :
    (pull isBlank size n source).1.length ≤ source.length := by
  induction n generalizing source with
  | zero => exact Nat.zero_le _
  | succ n ih =>
    by_cases hnil : (fill isBlank (max size 1) source).1 = []
    · rw [pull_succ_of_eq_nil hnil]
      exact Nat.zero_le _
    · rw [pull_succ_of_ne_nil hnil, List.length_cons]
      -- The batch has an item, which is not among those that are left.
      obtain ⟨⟨passed, hsource, hbatch⟩, -, -⟩ := fill_spec isBlank (max size 1) source
      have hpassed : 0 < passed.length := List.length_pos_iff.mpr fun hpassed =>
        hnil (hbatch.trans (congrArg (List.filter _) hpassed))
      have hlength := congrArg List.length hsource
      rw [List.length_append] at hlength
      have hmore := ih (fill isBlank (max size 1) source).2
      omega

/-- **Batches that are pulled one by one** are those of the whole source. -/
theorem fst_pull (isBlank : α → Bool) (size n : Nat) (source : List α) :
    (pull isBlank size n source).1 = (all isBlank size source).take n := by
  rcases Nat.le_total n (source.length + 1) with h | h
  · exact (take_pull h source).symm
  · have hlength : (pull isBlank size n source).1.length ≤ source.length + 1 :=
      Nat.le_succ_of_le (length_pull_le isBlank size n source)
    have hlength' : (all isBlank size source).length ≤ n :=
      Nat.le_trans (Nat.le_succ_of_le (length_pull_le isBlank size _ source)) h
    rw [List.take_of_length_le hlength', all, ← take_pull h, List.take_of_length_le hlength]

/-- However many batches are pulled, if the last one of them is full then nothing behind its last
item has been read. -/
theorem exists_last_of_pull {batch : List α}
    (h : (pull isBlank size (n + 1) source).1[n]? = some batch)
    (hfull : batch.length = max size 1) :
    ∃ before last, source = before ++ last :: (pull isBlank size (n + 1) source).2 ∧
      batch.getLast? = some last := by
  induction n generalizing source with
  | zero =>
    by_cases hnil : (fill isBlank (max size 1) source).1 = []
    · rw [pull_succ_of_eq_nil hnil] at h
      cases h
    · rw [pull_succ_of_ne_nil hnil] at h ⊢
      obtain rfl : (fill isBlank (max size 1) source).1 = batch := Option.some.inj h
      exact exists_last_of_fill (max_one_pos size) hfull
  | succ n ih =>
    by_cases hnil : (fill isBlank (max size 1) source).1 = []
    · rw [pull_succ_of_eq_nil hnil] at h
      cases h
    · rw [pull_succ_of_ne_nil hnil] at h ⊢
      -- The batch is one of those that are pulled from what the first one leaves.
      obtain ⟨before, last, hleft, hlast⟩ := ih h
      obtain ⟨⟨passed, hsource, -⟩, -, -⟩ := fill_spec isBlank (max size 1) source
      refine ⟨passed ++ before, last, ?_, hlast⟩
      rw [List.append_assoc, ← hleft]
      exact hsource

/-- There is no batch exactly if there are only blank items. -/
theorem all_eq_nil_iff :
    all isBlank size source = [] ↔ ∀ item ∈ source, isBlank item = true := by
  have hflatten := flatten_all isBlank size source
  constructor
  · intro hnil
    rw [hnil, List.flatten_nil, eq_comm, List.filter_eq_nil_iff] at hflatten
    exact fun item hitem => by simpa using hflatten item hitem
  · intro hblank
    rw [List.filter_eq_nil_iff.mpr fun item hitem => by simp [hblank item hitem],
      List.flatten_eq_nil_iff] at hflatten
    -- The batches are empty then, and no batch is.
    refine List.eq_nil_iff_forall_not_mem.mpr fun batch hbatch => ?_
    have hpos := (isCut_all isBlank size source).length_pos (max_one_pos size) batch hbatch
    rw [hflatten batch hbatch] at hpos
    exact Nat.lt_irrefl 0 hpos

end Pulling

/-- **Batches, and what is read for them.** The batches of any source hold its items that are not
blank, in order; all of them but the last have the size, the last one has between one item and the
size, and there is none exactly if all items are blank.  They can be pulled one by one, and when a
full one is delivered, the source has been read up to its last item and no further. -/
theorem all_spec (isBlank : α → Bool) (size : Nat) (source : List α) :
    let batches := all isBlank size source
    batches.flatten = source.filter (!isBlank ·) ∧
      (∀ batch ∈ batches.dropLast, batch.length = max size 1) ∧
      (∀ batch ∈ batches.getLast?, 1 ≤ batch.length ∧ batch.length ≤ max size 1) ∧
      (batches = [] ↔ ∀ item ∈ source, isBlank item = true) ∧
      ∀ n, (pull isBlank size n source).1 = batches.take n ∧
        ∀ batch, batches[n]? = some batch → batch.length = max size 1 →
          ∃ (position : Nat) (hposition : position < source.length),
            batch.getLast? = some (source[position]) ∧
            (source.take (position + 1)).filter (!isBlank ·) = (batches.take (n + 1)).flatten ∧
            (pull isBlank size (n + 1) source).2 = source.drop (position + 1) := by
  intro batches
  have hcut : IsCut (max size 1) batches := isCut_all isBlank size source
  refine ⟨flatten_all isBlank size source, hcut.length_of_mem_dropLast, fun batch hbatch => ?_,
    all_eq_nil_iff, fun n => ⟨fst_pull isBlank size n source, fun batch hbatch hfull => ?_⟩⟩
  · have hmem := List.mem_of_getLast? hbatch
    exact ⟨hcut.length_pos (max_one_pos size) batch hmem, hcut.length_le batch hmem⟩
  · have hpulled : (pull isBlank size (n + 1) source).1[n]? = some batch := by
      rw [fst_pull, List.getElem?_take_of_lt (Nat.lt_succ_self n)]
      exact hbatch
    obtain ⟨before, last, hsource, hlast⟩ := exists_last_of_pull hpulled hfull
    obtain ⟨passed, hread, hkept⟩ := exists_read_of_pull isBlank size (n + 1) source
    -- What has been read ends with the last item of the batch.
    rw [List.append_cons] at hsource
    obtain rfl : passed = before ++ [last] := List.append_cancel_right (hread.symm.trans hsource)
    have hlength : (before ++ [last]).length = before.length + 1 := List.length_append
    have hposition : before.length < source.length := by
      rw [hread, List.length_append, hlength]
      omega
    refine ⟨before.length, hposition, ?_, ?_, ?_⟩
    · have hitem : source[before.length]? = some last := by
        rw [hread]
        simp
      rw [hlast, ← hitem, List.getElem?_eq_getElem hposition]
    · rw [← fst_pull, hkept]
      conv_lhs => rw [hread, List.take_left' hlength]
    · conv_rhs => rw [hread, List.drop_left' hlength]

/-- Blanks between the items of a batch and right behind it. -/
def blankAround : List (Option Nat) := [some 1, none, some 2, none, none, some 3, none]

/-- The first batch is full, and the blanks behind it are still to be read. -/
theorem all_spec_blankAround :
    (all Option.isNone 2 blankAround)[0]? = some [some 1, some 2] ∧
      ∃ (position : Nat) (hposition : position < blankAround.length),
        blankAround[position] = some 2 ∧
        (blankAround.take (position + 1)).filter (!Option.isNone ·) = [some 1, some 2] ∧
        (pull Option.isNone 2 1 blankAround).2 = blankAround.drop (position + 1) := by
  obtain ⟨-, -, -, -, hpull⟩ := all_spec Option.isNone 2 blankAround
  obtain ⟨position, hposition, hlast, hread, hleft⟩ := (hpull 0).2 [some 1, some 2] rfl rfl
  exact ⟨rfl, position, hposition, (Option.some.inj hlast).symm, hread, hleft⟩

/-! ## Totals -/

/-- The numbers of items up to the end of each batch, where `n` of them are before the first. -/
def totals (n : Nat) : List (List α) → List Nat
  | [] => []
  | batch :: batches => (n + batch.length) :: totals (n + batch.length) batches

theorem length_totals (n : Nat) (batches : List (List α)) :
    (totals n batches).length = batches.length := by
  induction batches generalizing n with
  | nil => rfl
  | cons batch batches ih => rw [totals, List.length_cons, ih, List.length_cons]

theorem lt_of_mem_totals (h : ∀ batch ∈ batches, 0 < batch.length) {k : Nat}
    (hk : k ∈ totals n batches) : n < k := by
  induction batches generalizing n with
  | nil => cases hk
  | cons batch batches ih =>
    have hpos := h batch List.mem_cons_self
    rcases List.mem_cons.mp hk with rfl | hk
    · omega
    · have hlater := ih (fun b hb => h b (List.mem_cons_of_mem _ hb)) hk
      omega

/-- **Every batch adds to the total.** -/
theorem pairwise_totals (h : ∀ batch ∈ batches, 0 < batch.length) (n : Nat) :
    (n :: totals n batches).Pairwise (· < ·) := by
  refine List.pairwise_cons.mpr ⟨fun k hk => lt_of_mem_totals h hk, ?_⟩
  induction batches generalizing n with
  | nil => exact .nil
  | cons batch batches ih =>
    have hlater : ∀ b ∈ batches, 0 < b.length := fun b hb => h b (List.mem_cons_of_mem _ hb)
    exact List.pairwise_cons.mpr ⟨fun k hk => lt_of_mem_totals hlater hk, ih hlater _⟩

/-- **The last total** counts the items of all batches. -/
theorem getLast_totals (n : Nat) (batches : List (List α)) :
    (n :: totals n batches).getLast (List.cons_ne_nil _ _) = n + batches.flatten.length := by
  induction batches generalizing n with
  | nil => rfl
  | cons batch batches ih =>
    rw [totals, List.getLast_cons (List.cons_ne_nil _ _), ih, List.flatten_cons,
      List.length_append, Nat.add_assoc]

end Bitext.Batch
