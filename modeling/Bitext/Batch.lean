/-!
# Batches

Cuts a source into batches of a given size.  Blank items are dropped and do not count.  A batch is
read no further than its last item, so the rest of the source stays unread until the next batch is
asked for; a size of zero counts as one.

## Main definitions

* `Batch.fill`: one batch and what is left of the source.
* `Batch.pull`: a number of batches and what is left of the source.
* `Batch.all`: all batches.
-/
namespace Bitext.Batch

variable {α : Type}

/-- Collects items that are not blank until `room` of them are there or the source ends. -/
def fill (isBlank : α → Bool) : (room : Nat) → List α → List α × List α
  | 0, source => ([], source)
  | _ + 1, [] => ([], [])
  | room + 1, item :: rest =>
    if isBlank item then fill isBlank (room + 1) rest
    else
      let (batch, left) := fill isBlank room rest
      (item :: batch, left)

/-- The next `n` batches, or as many as there are, and what is left of the source. -/
def pull (isBlank : α → Bool) (size : Nat) : (n : Nat) → List α → List (List α) × List α
  | 0, source => ([], source)
  | n + 1, source =>
    let (batch, left) := fill isBlank (max size 1) source
    if batch.isEmpty then ([], left)
    else
      let (batches, left) := pull isBlank size n left
      (batch :: batches, left)

/-- All batches of a source; there cannot be more of them than items. -/
def all (isBlank : α → Bool) (size : Nat) (source : List α) : List (List α) :=
  (pull isBlank size (source.length + 1) source).1

end Bitext.Batch
