import Bitext.Proofs.Markup.Forest
import Bitext.Query.Report

/-!
# Results read back line by line

Results are written as lines of three fields with tabs between them, without any escape.  So they
are read back as the table that was written exactly if no text of a match holds a tab or a line
break: the parts between separators hold none, and fields without separators are found again.

## Main definitions

* `rows`: the fields of a text, line by line.
* `table`: the fields that results consist of, and an empty line for a query without any.
* `IsField`: a text without separators.

## Main results

* `not_mem_write_shown`: a written score has no separators
* `rows_lines`, `isField_of_rows_lines`: when results are read back
* `rows_render_eq_table_iff`: the same of the lines that are written for queries
-/

namespace Bitext

/-! ## Joined texts -/

namespace Text

variable {separator t : Text} {ts us : List Text} {tss : List (List Text)} {c : Char}

@[simp] theorem join_singleton (separator t : Text) : join separator [t] = t :=
  List.intercalate_singleton

theorem join_cons (hne : ts ≠ []) (separator t : Text) :
    join separator (t :: ts) = t ++ separator ++ join separator ts :=
  List.intercalate_cons_of_ne_nil hne

/-- What is joined has only the characters of the parts and of the separator. -/
theorem mem_join (h : c ∈ join separator ts) : c ∈ separator ∨ ∃ t ∈ ts, c ∈ t := by
  induction ts with
  | nil => cases h
  | cons t ts ih =>
    rcases eq_or_ne ts [] with rfl | hne
    · rw [join_singleton] at h
      exact .inr ⟨t, List.mem_cons_self, h⟩
    · rw [join_cons hne, List.mem_append, List.mem_append] at h
      rcases h with (h | h) | h
      · exact .inr ⟨t, List.mem_cons_self, h⟩
      · exact .inl h
      · refine (ih h).imp_right ?_
        rintro ⟨v, hv, hc⟩
        exact ⟨v, List.mem_cons_of_mem t hv, hc⟩

theorem join_append (hts : ts ≠ []) (hus : us ≠ []) :
    join separator (ts ++ us) = join separator ts ++ separator ++ join separator us := by
  induction ts with
  | nil => exact absurd rfl hts
  | cons t ts ih =>
    rw [List.cons_append]
    rcases eq_or_ne ts [] with rfl | hne
    · rw [List.nil_append, join_cons hus, join_singleton]
    · rw [join_cons (List.append_ne_nil_of_left_ne_nil hne us), ih hne, join_cons hne]
      simp only [List.append_assoc]

/-- Joining joined texts is joining all of them. -/
theorem join_map_join (h : ∀ ts ∈ tss, ts ≠ []) :
    join separator (tss.map (join separator)) = join separator tss.flatten := by
  induction tss with
  | nil => rfl
  | cons ts tss ih =>
    obtain ⟨hts, hrest⟩ := List.forall_mem_cons.mp h
    rw [List.map_cons, List.flatten_cons]
    rcases eq_or_ne tss [] with rfl | hne
    · rw [List.map_nil, List.flatten_nil, List.append_nil, join_singleton]
    · have hflatten : tss.flatten ≠ [] := by
        obtain ⟨us, hus⟩ := List.exists_mem_of_ne_nil tss hne
        exact List.flatten_ne_nil_iff.mpr ⟨us, hus, hrest us hus⟩
      rw [join_append hts hflatten, join_cons (List.map_eq_nil_iff.not.mpr hne), ih hrest]

end Text

/-! ## Written scores -/

namespace Decimal

variable {c : Char}

theorem mem_plain {d : Decimal} (h : c ∈ shown.plain d) : c.isDigit = true ∨ c = '.' := by
  have hdigits : ∀ c ∈ Text.ofNat d.digits, c.isDigit = true ∨ c = '.' :=
    fun c hc => .inl (Markup.isDigit_of_mem_ofNat hc)
  have hzeros (n : Nat) : ∀ c ∈ List.replicate n '0', c.isDigit = true ∨ c = '.' := by
    intro c hc
    rw [List.eq_of_mem_replicate hc]
    exact .inl rfl
  simp only [Notation.plain] at h
  split at h
  · rcases List.mem_append.mp h with h | h
    · rcases List.mem_append.mp h with h | h
      · exact hdigits c h
      · exact hzeros _ c h
    · cases h
  · split at h
    -- The point stands among the digits, or in front of zeros and all digits.
    · rcases List.mem_append.mp h with h | h
      · exact hdigits c (List.mem_of_mem_take h)
      · rcases List.mem_cons.mp h with rfl | h
        · exact .inr rfl
        · exact hdigits c (List.mem_of_mem_drop h)
    · rcases List.mem_cons.mp h with rfl | h
      · exact .inl rfl
      · rcases List.mem_cons.mp h with rfl | h
        · exact .inr rfl
        · rcases List.mem_append.mp h with h | h
          · exact hzeros _ c h
          · exact hdigits c h

theorem mem_magnitude {bits : UInt64} (h : c ∈ shown.magnitude bits) :
    c.isDigit = true ∨ c = '.' := by
  simp only [Notation.magnitude, shown] at h
  split at h <;> exact mem_plain h

/-- What a shown score consists of. -/
theorem mem_write_shown {x : Float} (h : c ∈ shown.write x) :
    c.isDigit = true ∨ c ∈ ".-NaNinf".toList := by
  have hsign : ∀ c ∈ (if x.toBits >>> 63 == 1 then ['-'] else []), c ∈ ".-NaNinf".toList := by
    intro c hc
    split at hc
    · rw [List.mem_singleton.mp hc]
      decide
    · cases hc
  simp only [Notation.write] at h
  split at h
  · exact .inr (List.mem_append_left "inf".toList (List.mem_append_right ".-".toList h))
  · split at h
    · rcases List.mem_append.mp h with h | h
      · exact .inr (hsign c h)
      · exact .inr (List.mem_append_right ".-NaN".toList h)
    · rcases List.mem_append.mp h with h | h
      · exact .inr (hsign c h)
      · rcases mem_magnitude h with hc | rfl
        · exact .inl hc
        · exact .inr (by decide)

end Decimal

namespace Query

/-! ## Fields -/

/-- A text that holds neither a tab nor a line break. -/
def IsField (t : Text) : Prop := '\t' ∉ t ∧ '\n' ∉ t

instance (t : Text) : Decidable (IsField t) := inferInstanceAs (Decidable (_ ∧ _))

/-- A shown score holds no separators. -/
theorem isField_write_shown (x : Float) : IsField (Decimal.shown.write x) := by
  constructor
  · intro h
    exact absurd (Decimal.mem_write_shown h) (by decide)
  · intro h
    exact absurd (Decimal.mem_write_shown h) (by decide)

/-- The fields of a text, line by line. -/
def rows (t : Text) : List (List Text) := (t.splitOn '\n').map (·.splitOn '\t')

/-- The text with given fields in its lines. -/
def unrows (fields : List (List Text)) : Text :=
  Text.join ['\n'] (fields.map (Text.join ['\t']))

variable {fields : List (List Text)} {row : List Text} {t f : Text}

/-- Nothing that is read as a field holds a separator. -/
theorem isField_of_mem_rows (hrow : row ∈ rows t) (hf : f ∈ row) : IsField f := by
  obtain ⟨l, hl, rfl⟩ := List.mem_map.mp hrow
  rw [List.splitOn_eq_splitOnP] at hl hf
  constructor
  · intro htab
    exact absurd (Text.mem_of_mem_splitOnP hf htab).2 (by decide)
  · intro hbreak
    obtain ⟨hline, -⟩ := Text.mem_of_mem_splitOnP hf hbreak
    exact absurd (Text.mem_of_mem_splitOnP hl hline).2 (by decide)

/-- A line of fields splits into them. -/
theorem splitOn_join (hne : row ≠ []) (hrow : ∀ f ∈ row, IsField f) :
    (Text.join ['\t'] row).splitOn '\t' = row :=
  List.splitOn_intercalate '\t' (fun f hf => (hrow f hf).1) hne

/-- **Fields are read back** from the text that has them in its lines. -/
theorem rows_unrows (hne : fields ≠ []) (hrows : ∀ row ∈ fields, row ≠ [])
    (hfields : ∀ row ∈ fields, ∀ f ∈ row, IsField f) : rows (unrows fields) = fields := by
  have hlines : ∀ l ∈ fields.map (Text.join ['\t']), '\n' ∉ l := by
    intro l hl hbreak
    obtain ⟨row, hrow, rfl⟩ := List.mem_map.mp hl
    rcases Text.mem_join hbreak with htab | ⟨f, hf, hc⟩
    · exact absurd htab (by decide)
    · exact (hfields row hrow f hf).2 hc
  have hsplit : (unrows fields).splitOn '\n' = fields.map (Text.join ['\t']) :=
    List.splitOn_intercalate '\n' hlines (List.map_eq_nil_iff.not.mpr hne)
  rw [rows, hsplit, List.map_map]
  conv_rhs => rw [← List.map_id fields]
  refine List.map_congr_left fun row hrow => ?_
  exact splitOn_join (hrows row hrow) (hfields row hrow)

/-! ## Lines of matches -/

variable {α : Type} {score : α → Text} {results : List (List (Match α))} {ms : List (Match α)}

/-- The fields of the lines for a query: one line for each match, and an empty one if there is
none. -/
def tableOf (score : α → Text) (ms : List (Match α)) : List (List Text) :=
  if ms.isEmpty then [[[]]] else ms.map fun m => [m.source, m.target, score m.score]

/-- The fields that results consist of, line by line. -/
def table (score : α → Text) (results : List (List (Match α))) : List (List Text) :=
  results.flatMap (tableOf score)

theorem tableOf_of_ne_nil (h : ms ≠ []) :
    tableOf score ms = ms.map fun m => [m.source, m.target, score m.score] :=
  if_neg (by rwa [List.isEmpty_iff])

theorem tableOf_ne_nil (score : α → Text) (ms : List (Match α)) : tableOf score ms ≠ [] := by
  cases ms with
  | nil => exact List.cons_ne_nil _ _
  | cons m ms => exact List.cons_ne_nil _ _

/-- A query has a line without fields, or a line of a match. -/
theorem mem_tableOf (h : row ∈ tableOf score ms) :
    row = [[]] ∨ ∃ m ∈ ms, row = [m.source, m.target, score m.score] := by
  cases ms with
  | nil => exact .inl (List.mem_singleton.mp h)
  | cons m ms =>
    rw [tableOf_of_ne_nil (List.cons_ne_nil m ms)] at h
    obtain ⟨m', hm', rfl⟩ := List.mem_map.mp h
    exact .inr ⟨m', hm', rfl⟩

theorem unrows_tableOf (score : α → Text) (ms : List (Match α)) :
    unrows (tableOf score ms) = Text.join ['\n'] (ms.map (line score)) := by
  cases ms with
  | nil => rfl
  | cons m ms =>
    rw [tableOf_of_ne_nil (List.cons_ne_nil m ms), unrows, List.map_map]
    congr 1
    refine List.map_congr_left fun m' _ => ?_
    simp [line, Text.join]

/-- What is written are the lines with the fields of all results. -/
theorem lines_eq_unrows (score : α → Text) (results : List (List (Match α))) :
    lines score results = unrows (table score results) := by
  have hblocks :
      ∀ ts ∈ results.map fun ms => (tableOf score ms).map (Text.join ['\t']), ts ≠ [] := by
    intro ts hts
    obtain ⟨ms, -, rfl⟩ := List.mem_map.mp hts
    exact List.map_eq_nil_iff.not.mpr (tableOf_ne_nil score ms)
  rw [lines, unrows, table, List.map_flatMap, List.flatMap_def, ← Text.join_map_join hblocks,
    List.map_map]
  congr 1
  refine List.map_congr_left fun ms _ => ?_
  exact (unrows_tableOf score ms).symm

/-- **Texts of matches that are read back** hold no separators. -/
theorem isField_of_rows_lines (h : rows (lines score results) = table score results) :
    ∀ ms ∈ results, ∀ m ∈ ms, IsField m.source ∧ IsField m.target := by
  intro ms hms m hm
  have hrow : [m.source, m.target, score m.score] ∈ rows (lines score results) := by
    rw [h, table, List.mem_flatMap]
    refine ⟨ms, hms, ?_⟩
    rw [tableOf_of_ne_nil (List.ne_nil_of_mem hm)]
    exact List.mem_map_of_mem hm
  exact ⟨isField_of_mem_rows hrow (by simp), isField_of_mem_rows hrow (by simp)⟩

/-- **Results are read back** if their texts hold no separators. -/
theorem rows_lines (hne : results ≠ []) (hscore : ∀ x, IsField (score x))
    (h : ∀ ms ∈ results, ∀ m ∈ ms, IsField m.source ∧ IsField m.target) :
    rows (lines score results) = table score results := by
  rw [lines_eq_unrows]
  apply rows_unrows
  · obtain ⟨ms, rest, rfl⟩ := List.exists_cons_of_ne_nil hne
    rw [table, List.flatMap_cons]
    exact List.append_ne_nil_of_left_ne_nil (tableOf_ne_nil score ms) _
  · intro row hrow
    obtain ⟨ms, -, hrow⟩ := List.mem_flatMap.mp hrow
    rcases mem_tableOf hrow with rfl | ⟨m, -, rfl⟩ <;> exact List.cons_ne_nil _ _
  · intro row hrow
    obtain ⟨ms, hms, hrow⟩ := List.mem_flatMap.mp hrow
    rcases mem_tableOf hrow with rfl | ⟨m, hm, rfl⟩
    · simp [IsField]
    · obtain ⟨hsource, htarget⟩ := h ms hms m hm
      simpa using ⟨hsource, htarget, hscore m.score⟩

/-- **What is written for queries is read back** line by line and field by field exactly if no text
of a match holds a tab or a line break. -/
theorem rows_render_eq_table_iff (texts : List Text) {results : List (List (Match Float))}
    (hne : results ≠ []) :
    rows (render .moses texts results) = table Decimal.shown.write results ↔
      ∀ ms ∈ results, ∀ m ∈ ms, IsField m.source ∧ IsField m.target :=
  ⟨isField_of_rows_lines, rows_lines hne isField_write_shown⟩

/-- A query with a match and one without any. -/
theorem rows_render_two_queries :
    [[({ source := "Hello".toList, target := "Hola".toList, score := 100 } : Match Float)], []] ≠
        [] ∧
      rows (render .moses ["Hello".toList, "Bye".toList]
          [[{ source := "Hello".toList, target := "Hola".toList, score := 100 }], []]) =
        [["Hello".toList, "Hola".toList, Decimal.shown.write 100], [[]]] := by
  refine ⟨List.cons_ne_nil _ _, ?_⟩
  apply (rows_render_eq_table_iff _ (List.cons_ne_nil _ _)).mpr
  intro ms hms m hm
  rcases List.mem_cons.mp hms with rfl | hms
  · rw [List.mem_singleton.mp hm]
    exact ⟨by decide, by decide⟩
  · rw [List.mem_singleton.mp hms] at hm
    cases hm

/-- Stored texts with a line break and a tab are not read back. -/
theorem rows_render_ne_table :
    rows (render .moses ["Hello world".toList]
        [[{ source := "Hello\nworld".toList, target := "Hola\tmundo".toList, score := 100 }]]) ≠
      table Decimal.shown.write
        [[{ source := "Hello\nworld".toList, target := "Hola\tmundo".toList, score := 100 }]] := by
  intro h
  obtain ⟨hsource, -⟩ := isField_of_rows_lines h _ List.mem_cons_self _ List.mem_cons_self
  exact absurd hsource (by decide)

end Query

end Bitext
