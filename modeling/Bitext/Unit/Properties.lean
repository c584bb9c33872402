import Bitext.Text.Order

/-!
# Properties

A finite map from keys to values, both texts.  It is kept as a list in strictly increasing order of
the keys, so that equal maps are equal lists and printing follows the order of the keys.
-/
namespace Bitext

/-- The keys of a list of entries increase strictly. -/
def Increasing (entries : List (Text × Text)) : Prop :=
  entries.Pairwise fun a b => Text.precedes a.1 b.1

/-- Properties of a unit or of one of its sides. -/
structure Properties where
  entries : List (Text × Text)
  increasing : Increasing entries

namespace Properties

theorem ext {p q : Properties} (h : p.entries = q.entries) : p = q := by
  cases p
  cases q
  simp_all

instance : DecidableEq Properties := fun p q =>
  if h : p.entries = q.entries then isTrue (ext h) else isFalse fun e => h (e ▸ rfl)

/-- No properties. -/
def empty : Properties := ⟨[], .nil⟩

/-- Puts a value in its place, instead of an earlier value of the key. -/
def insertEntry (key value : Text) : List (Text × Text) → List (Text × Text)
  | [] => [(key, value)]
  | (k, v) :: rest =>
    if key = k then (key, value) :: rest
    else if Text.precedes key k then (key, value) :: (k, v) :: rest
    else (k, v) :: insertEntry key value rest

theorem mem_insertEntry {key value : Text} {entries : List (Text × Text)} {e : Text × Text}
    (h : e ∈ insertEntry key value entries) : e = (key, value) ∨ e ∈ entries := by
  induction entries with
  | nil => simp_all [insertEntry]
  | cons head rest ih =>
    obtain ⟨k, v⟩ := head
    simp only [insertEntry] at h
    split at h
    · simp only [List.mem_cons] at h ⊢
      rcases h with h | h
      · exact .inl h
      · exact .inr (.inr h)
    · split at h
      · simp_all
      · simp only [List.mem_cons] at h ⊢
        rcases h with h | h
        · exact .inr (.inl h)
        · rcases ih h with h | h
          · exact .inl h
          · exact .inr (.inr h)

theorem increasing_insertEntry {key value : Text} {entries : List (Text × Text)}
    (h : Increasing entries) : Increasing (insertEntry key value entries) := by
  induction entries with
  | nil => exact .cons (by simp) .nil
  | cons head rest ih =>
    obtain ⟨k, v⟩ := head
    obtain ⟨above, rest_increasing⟩ := List.pairwise_cons.1 h
    simp only [insertEntry]
    split
    · rename_i same
      subst same
      exact .cons above rest_increasing
    · split
      · rename_i below
        refine .cons ?_ h
        intro e he
        rcases List.mem_cons.1 he with rfl | he
        · exact below
        · exact Text.precedes_trans below (above e he)
      · rename_i different not_below
        refine .cons ?_ (ih rest_increasing)
        intro e he
        rcases mem_insertEntry he with rfl | he
        · exact Text.precedes_of_not different not_below
        · exact above e he

/-- Gives a key a value. -/
def insert (p : Properties) (key value : Text) : Properties :=
  ⟨insertEntry key value p.entries, increasing_insertEntry p.increasing⟩

/-- The value of a key. -/
def get? (p : Properties) (key : Text) : Option Text := p.entries.lookup key

/-- The properties with the given entries; of entries with one key the last counts. -/
def ofList (entries : List (Text × Text)) : Properties :=
  entries.foldl (fun p e => p.insert e.1 e.2) empty

/-- Every entry of `wanted` is among the properties. -/
def includes (p wanted : Properties) : Bool :=
  wanted.entries.all fun (k, v) => p.get? k == some v

end Properties

instance : Inhabited Properties := ⟨.empty⟩

instance : Repr Properties := ⟨fun p n => reprPrec p.entries n⟩

end Bitext
