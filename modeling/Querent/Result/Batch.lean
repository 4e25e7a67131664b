import Querent.Row
import Querent.Session

/-!
# Batches of rows

A batch is a copy of rows, on its own from then on, and at one of them. It is
released by itself, whatever happens to the result that it was copied from.
-/

namespace Querent

structure Batch where
  handle : Handle
  deriving DecidableEq, Repr

namespace Batch

variable {σ : Type} (L : Library σ) (b : Batch)

/-- Goes to the next row. There is none at the end of the batch, which is not
always the end of data. -/
def next : Action σ Bool := call (L.results.nextRow b.handle)

/-- The number of fields of the row at hand. -/
def count : Action σ Nat := call (L.results.fieldCount b.handle)

def field (i : Nat) : Action σ Value := call (L.results.field b.handle i)

/-- The row at hand. -/
def row : Action σ Row := do
  let n ← b.count L
  (List.range n).mapM fun i => b.field L i

def release : Action σ Unit := call (L.results.release b.handle .row)

end Batch

end Querent
