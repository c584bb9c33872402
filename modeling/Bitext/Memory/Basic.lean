import Bitext.Error
import Bitext.Score.Selection

/-!
# Translation memories

A memory is a list of units in the order in which they were stored.  Each unit is stored in one
direction and answers requests in both.  A scan is a cursor into the memory, so that units stored
after it was opened are still met; only the set of duplicates is fixed on opening.

## Main definitions

* `SearchFilters.accepts`: the restrictions on domain and file name.
* `Memory.insert`, `Memory.search`, `Memory.fileNames`.
* `ScanCursor`, `Memory.openScan`, `Memory.pull`: scans that are read bit by bit.
* `Memory.scan`: all units of a scan at once.
* `Backend`: what the engine needs of the place where units are kept.
-/
namespace Bitext

/-- Restrictions on what a memory yields. -/
structure SearchFilters where
  /-- Units of at least one of these domains; an empty list restricts nothing. -/
  domains : List Text := []
  /-- Units from one of these files; an empty list restricts nothing. -/
  fileNames : List Text := []
  /-- For scans: units whose texts occur more than once. -/
  duplicatesOnly : Bool := false
  /-- For searches: units with as many words as the query. -/
  exactLength : Bool := false
  deriving DecidableEq, Repr

/-- The domain and the file name of the unit are acceptable. -/
def SearchFilters.accepts (f : SearchFilters) (u : TranslationUnit) : Bool :=
  (f.domains.isEmpty || u.hasAnyDomain f.domains) &&
    (f.fileNames.isEmpty || u.fileName?.any f.fileNames.contains)

/-- A translation memory: its units in storage order. -/
structure Memory where
  units : List TranslationUnit := []
  deriving DecidableEq, Repr

/-- A place in a memory that a scan has come to. -/
structure ScanCursor where
  /-- The number of stored units the scan has passed. -/
  position : Nat
  pair : LanguagePair
  filters : SearchFilters
  /-- The content keys that occurred more than once on opening, if only duplicates are wanted. -/
  duplicates? : Option (List Text)
  deriving DecidableEq, Repr

namespace Memory

/-- Stores the usable units of a batch. -/
def insert (m : Memory) (batch : List TranslationUnit) : Memory :=
  ⟨m.units ++ batch.filter (·.isUsable)⟩

/-- How many units of a batch are stored. -/
def accepted (batch : List TranslationUnit) : Nat := (batch.filter (·.isUsable)).length

/-- The units of a pair that the filters accept, seen from the pair. -/
def matching (m : Memory) (pair : LanguagePair) (filters : SearchFilters) : List TranslationUnit :=
  (m.units.filterMap (·.oriented? pair)).filter filters.accepts

/-- The content keys that occur more than once among units. -/
def repeatedKeys (units : List TranslationUnit) : List Text :=
  let keys := units.map (·.contentKey)
  (keys.filter fun k => 2 ≤ keys.count k).eraseDups

/-- The distinct file names of the units of a pair that the filters accept, in order. -/
def fileNames (m : Memory) (pair : LanguagePair) (filters : SearchFilters) : List Text :=
  (((m.matching pair filters).filterMap (·.fileName?)).eraseDups).mergeSort Text.atMost

end Memory

/-! ## Scans -/

namespace ScanCursor

/-- What a scan yields for a stored unit, if anything. -/
def yield? (s : ScanCursor) (u : TranslationUnit) : Option TranslationUnit :=
  (u.oriented? s.pair).filter fun u =>
    s.filters.accepts u && s.duplicates?.all (·.contains u.contentKey)

/-- Passes stored units until `n` units have been yielded, and counts the units passed. -/
def advance (s : ScanCursor) : (n : Nat) → List TranslationUnit → List TranslationUnit × Nat
  | 0, _ => ([], 0)
  | _ + 1, [] => ([], 0)
  | n + 1, u :: rest =>
    match s.yield? u with
    | some v =>
      let (vs, passed) := s.advance n rest
      (v :: vs, passed + 1)
    | none =>
      let (vs, passed) := s.advance (n + 1) rest
      (vs, passed + 1)

end ScanCursor

namespace Memory

/-- Opens a scan at the start of the memory. -/
def openScan (m : Memory) (pair : LanguagePair) (filters : SearchFilters) : ScanCursor where
  position := 0
  pair := pair
  filters := filters
  duplicates? := if filters.duplicatesOnly then some (repeatedKeys (m.matching pair filters)) else none

/-- The next units of a scan, at most `n`, and the scan after them. -/
def pull (m : Memory) (s : ScanCursor) (n : Nat) : List TranslationUnit × ScanCursor :=
  let (units, passed) := s.advance n (m.units.drop s.position)
  (units, { s with position := s.position + passed })

/-- All units of a scan. -/
def scan (m : Memory) (pair : LanguagePair) (filters : SearchFilters) : List TranslationUnit :=
  m.units.filterMap (m.openScan pair filters).yield?

/-! ## Searches -/

section Searching

variable {α : Type} [Score α]

/-- The units that a search ranks, with their similarity to the query in percent. -/
def eligible (m : Memory) (query : Text) (pair : LanguagePair) (filters : SearchFilters) :
    List (Candidate α) :=
  let words := Markup.wordCount query
  let units := (m.matching pair filters).filter fun u =>
    !filters.exactLength || Markup.wordCount u.sourceText == words
  units.map fun u => ⟨u, similarity query u.sourceText * Score.ofNat 100⟩

/-- The best candidates for a query, at most `limit`: greatest similarity first, and in storage order
where it is equal. -/
def search (m : Memory) (query : Text) (pair : LanguagePair) (filters : SearchFilters)
    (limit : Nat) : List (Candidate α) :=
  ((m.eligible query pair filters).mergeSort fun a b => !Score.lt a.score b.score).take limit

end Searching

end Memory

/-! ## Backends -/

/-- Ranked retrieval and scanning, each of which may fail. -/
structure Backend (α : Type) where
  search : Text → LanguagePair → SearchFilters → (limit : Nat) → Except Error (List (Candidate α))
  scan : LanguagePair → SearchFilters → Except Error (List TranslationUnit)

/-- A memory as a backend. -/
def Memory.backend {α : Type} [Score α] (m : Memory) : Backend α where
  search query pair filters limit := .ok (m.search query pair filters limit)
  scan pair filters := .ok (m.scan pair filters)

end Bitext
