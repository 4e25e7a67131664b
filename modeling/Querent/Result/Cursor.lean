import Querent.Result.Basic

/-!
# Cursors

A cursor delivers the rows of a result one by one. It walks through the batch
at hand and asks for the next one when that is exhausted, until the server has
no more. It delivers one error at most, and nothing after an error or the end.
-/

namespace Querent

/-- Where a cursor stands. -/
inductive Phase where
  /-- not opened yet -/
  | pending
  /-- on a row of a batch that has been handed out -/
  | reading
  | done
  deriving DecidableEq, Repr

structure Cursor where
  batch : Option Batch
  result : QueryResult
  phase : Phase
  /-- rows handed out so far -/
  rows : Nat
  deriving DecidableEq, Repr

/-- What a cursor yields. -/
inductive Yield where
  | row (row : Row)
  | error (e : Error)
  | finished
  deriving DecidableEq, Repr

namespace Cursor

/-- The cursor over the rows of a result, which it takes over. -/
def ofResult (r : QueryResult) : Cursor := ⟨none, r, .pending, 0⟩

def isDone (c : Cursor) : Bool := c.phase = .done

variable {σ : Type} (L : Library σ) (c : Cursor)

/-- Releases the batch at hand, if there is one. -/
def releaseBatch : Action σ Cursor := do
  match c.batch with
  | some b =>
    b.release L
    return { c with batch := none }
  | none => return c

/-- Takes a copy of the batch that the result is at. -/
def takeBatch : Action σ (Except Error Bool × Cursor) := do
  let (b, result) ← c.result.row L
  match b with
  | .ok b => return (.ok true, { c with result, batch := some b })
  | .error e => return (.error e, { c with result })

/-- What a request for a batch means for the cursor: to take the batch, or that
there is no row. -/
def afterRequest : Except Error Fetched → Action σ (Except Error Bool × Cursor)
  | .ok .batch => c.takeBatch L
  | .ok .endOfData => return (.ok false, c)
  | .error e => return (.error e, c)

/-- Opens the result and goes to its first row; says whether there is one. -/
def start : Action σ (Except Error Bool × Cursor) := do
  if ← c.result.isOk L then
    let (k, result) ← c.result.kind L
    let c := { c with result }
    if k.hasRows then
      let (fetched, result) ← c.result.openRows L
      { c with result }.afterRequest L fetched
    else return (.error (.wrongType (.notRows k)), c)
  else if (← c.result.code L) = Code.endOfData then return (.ok false, c)
  else return (.error (← c.result.error L), c)

/-- The batch at hand has another row, and is there now. -/
def hasNext : Action σ Bool := do
  match c.batch with
  | some b => b.next L
  | none => return false

/-- Goes to the next row, with a new batch if need be; says whether there is one.
An exhausted batch is released before the next one is asked for. -/
def advance : Action σ (Except Error Bool × Cursor) := do
  if ← c.hasNext L then return (.ok true, c)
  else
    let c ← c.releaseBatch L
    let (k, result) ← c.result.kind L
    let c := { c with result }
    if k = .row then return (.ok false, c)
    else
      let (fetched, result) ← c.result.fetch L
      { c with result }.afterRequest L fetched

/-- The cursor is through. -/
def finish : Action σ Cursor := do
  return { ← c.releaseBatch L with phase := .done }

/-- Goes to the row that is next to be handed out. -/
def position : Action σ (Except Error Bool × Cursor) := do
  match c.phase with
  | .pending => c.start L
  | .reading => c.advance L
  | .done => return (.ok false, c)

/-- The next row, the error that ends the iteration, or the end. -/
def next : Action σ (Yield × Cursor) := do
  if c.isDone then return (.finished, c)
  else
    let (found, c) ← c.position L
    match found with
    | .error e => return (.error e, ← c.finish L)
    | .ok false => return (.finished, ← c.finish L)
    | .ok true =>
      match c.batch with
      | some b =>
        let row ← b.row L
        return (.row row, { c with phase := .reading, rows := c.rows + 1 })
      | none => return (.finished, ← c.finish L)

/-- Ends the cursor: its batch is released, then its result. -/
def drop : Action σ Unit := do
  let c ← c.releaseBatch L
  c.result.drop L

/-- The rows from here to the end or to an error, which is given with them. The
fuel bounds their number; `none` if it runs out. -/
def collect : (fuel : Nat) → Cursor → Action σ (Option (List Row × Option Error) × Cursor)
  | 0, c => return (none, c)
  | fuel + 1, c => do
    match ← c.next L with
    | (.finished, c) => return (some ([], none), c)
    | (.error e, c) => return (some ([], some e), c)
    | (.row row, c) =>
      let (more, c) ← collect fuel c
      return (more.map fun (rows, e) => (row :: rows, e), c)

end Cursor

end Querent
