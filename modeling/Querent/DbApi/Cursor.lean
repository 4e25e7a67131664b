import Querent.Connection
import Querent.DbApi.Row
import Querent.Statement.Placeholder
import Querent.Statement.Select

/-!
# DB-API cursors

A cursor of the DB-API executes statements on a connection that it holds, and
fetches their rows in a format. It knows the names of the columns, from the
statement or, for `select *`, from the server.
-/

namespace Querent.DbApi

structure Cursor where
  connection : Connection
  rows : Option Querent.Cursor
  executed : Bool
  /-- the names of the columns, if the statement returns rows -/
  description : Option (List String)
  /-- rows fetched or affected so far, -1 if unknown -/
  rowCount : Int64
  /-- how many rows `fetchMany` fetches unless told -/
  arraySize : Nat
  format : RowFormat
  deriving DecidableEq, Repr

namespace Cursor

/-- The cursor that takes over a holder of a session. -/
def ofConnection (connection : Connection) : Cursor :=
  ⟨connection, none, false, none, -1, 1, .dict⟩

/-- The cursor without its result. -/
def reset (c : Cursor) : Cursor :=
  { c with rows := none, executed := false, description := none, rowCount := -1 }

variable {σ : Type} (L : Library σ)

/-- Ends the rows at hand. -/
def dropRows (c : Cursor) : Action σ Unit := do
  match c.rows with
  | some rows => rows.drop L
  | none => pure ()

/-- Ends the result at hand. The cursor can execute again. -/
def close (c : Cursor) : Action σ Cursor := do
  c.dropRows L
  return c.reset

/-- Ends the cursor: its connection first, then its rows. -/
def drop (c : Cursor) : Action σ Unit := do
  c.connection.drop L
  c.dropRows L

/-- The column that a row of a description names: its first field. -/
def columnOf? (row : Row) : Option String := row.head?.map Value.display

/-- The columns that the result of a `describe` names. -/
def describedColumns (fuel : Nat) (res : QueryResult) :
    Action σ (Option (Except Error (List String))) := do
  if ← res.isOk L then
    let (rows, cursor) ← (Querent.Cursor.ofResult res).collect L fuel
    cursor.drop L
    return rows.map fun
      | (_, some e) => .error (.cannotDescribe e)
      | (rows, none) => .ok (rows.filterMap columnOf?)
  else
    let details ← res.details L
    res.drop L
    return some (.error (.describeRefused details))

/-- The columns of a statement, asked from the server if need be. -/
def describe (fuel : Nat) (connection : Connection) (sql : String) :
    Action σ (Option (Except Error (List String))) := do
  match Statement.selectColumns sql with
  | .named names => return some (.ok names)
  | .unknown => return some (.ok [])
  | .star table =>
    match ← connection.execute L ("describe " ++ table) with
    | .error e => return some (.error (.cannotDescribe e))
    | .ok res => describedColumns L fuel res

/-- The count of affected rows as a row count, the greatest one if it is too large. -/
def clampCount (affected : UInt64) : Int64 :=
  (int64? affected.toNat).getD Int64.maxValue

/-- Takes in the result of a statement with these columns. -/
def accept (c : Cursor) (columns : List String) (res : QueryResult) :
    Action σ (Except Error Unit × Cursor) := do
  let c := { c with executed := true }
  if ← res.isOk L then
    let (k, res) ← res.kind L
    match k with
    | .cursor | .row =>
      return (.ok (), { c with description := some columns, rows := some (.ofResult res) })
    | .report =>
      let (report, res) ← res.report L
      res.drop L
      match report with
      | .ok report => return (.ok (), { c with rowCount := clampCount report.affected })
      | .error e => return (.error (.failure e), c)
    | _ =>
      res.drop L
      return (.ok (), c)
  else if (← res.code L) = Code.endOfData then
    res.drop L
    return (.ok (), { c with description := some columns, rowCount := 0 })
  else
    let code ← res.code L
    let details ← res.details L
    res.drop L
    return (.error (.refused code details), c)

/-- Executes a complete statement, after a reset. -/
def send (fuel : Nat) (c : Cursor) (sql : String) :
    Action σ (Option (Except Error Unit) × Cursor) := do
  match ← describe L fuel c.connection sql with
  | none => return (none, c)
  | some (.error e) => return (some (.error e), c)
  | some (.ok columns) =>
    match ← c.connection.execute L sql with
    | .error e => return (some (.error (.failure e)), c)
    | .ok res =>
      let (outcome, c) ← c.accept L columns res
      return (some outcome, c)

/-- The statement that is sent: without parameters, the text as it is. -/
def statementFor (op : String) (params : List Value) : Except Error String :=
  if params.isEmpty then .ok op else Statement.substitute op params

/-- Executes a statement with parameters. The fuel bounds the rows of a
description; `none` if it runs out. -/
def execute (fuel : Nat) (c : Cursor) (op : String) (params : List Value) :
    Action σ (Option (Except Error Unit) × Cursor) := do
  let c ← c.close L
  match statementFor op params with
  | .error e => return (some (.error e), c)
  | .ok sql => c.send L fuel sql

/-- The total of several statements with what the last of them has counted, if
it has counted anything; none if the sum is no machine word. -/
def addCount? (c : Cursor) (total : Option Int64) : Option (Option Int64) :=
  if c.rows.isNone ∧ c.rowCount ≥ 0 then (sum64? (total.getD 0) c.rowCount).map some
  else some total

/-- Executes a statement once for each list of parameters, adding up the rows
that reports count in `total`. -/
def executeEach (fuel : Nat) (op : String) :
    (total : Option Int64) → Cursor → List (List Value) →
    Action σ (Option (Except Failure Unit) × Cursor)
  | total, c, [] =>
    return (some (.ok ()), match total with
      | some n => { c with rowCount := n }
      | none => c)
  | total, c, params :: rest => do
    match ← c.execute L fuel op params with
    | (none, c) => return (none, c)
    | (some (.error e), c) => return (some (.error (.error e)), c)
    | (some (.ok ()), c) =>
      match c.addCount? total with
      | some total => executeEach fuel op total c rest
      | none => return (some (.error (.panic .overflow)), c)

/-- Executes a statement once for each list of parameters. The rows of the last
one can be fetched. -/
def executeMany (fuel : Nat) (c : Cursor) (op : String) (seq : List (List Value)) :
    Action σ (Option (Except Failure Unit) × Cursor) :=
  executeEach L fuel op none c seq

/-- The count of one row more, if it is a machine word. -/
def nextCount? (c : Cursor) : Option Int64 := sum64? (max c.rowCount 0) 1

/-- What is fetched where the rows yield this. A row that cannot be counted is lost. -/
def fetched (c : Cursor) : Yield → Except Failure (Option ShapedRow)
  | .finished => .ok none
  | .error e => .error (.error (.failure e))
  | .row row =>
    if c.nextCount?.isSome then .ok (some (.ofRow c.format (c.description.getD []) row))
    else .error (.panic .overflow)

/-- The cursor with its rows as they are after a fetch, and one row more counted if
there was one and it can be counted. -/
def afterYield (c : Cursor) (y : Yield) (rows : Querent.Cursor) : Cursor :=
  { c with
    rows := some rows
    rowCount := match y with
      | .row _ => c.nextCount?.getD (max c.rowCount 0)
      | _ => max c.rowCount 0 }

/-- The next row, or none when all have been fetched. -/
def fetchOne (c : Cursor) : Action σ (Except Failure (Option ShapedRow) × Cursor) := do
  if !c.executed then return (.error (.error .notExecuted), c)
  else match c.rows with
    | none => return (.ok none, c)
    | some rows =>
      let (y, rows) ← rows.next L
      return (c.fetched y, c.afterYield y rows)

/-- Up to `n` rows; a failure loses those fetched before it. -/
def fetchUpTo : (n : Nat) → Cursor → Action σ (Except Failure (List ShapedRow) × Cursor)
  | 0, c => return (.ok [], c)
  | n + 1, c => do
    match ← c.fetchOne L with
    | (.error e, c) => return (.error e, c)
    | (.ok none, c) => return (.ok [], c)
    | (.ok (some row), c) =>
      let (more, c) ← fetchUpTo n c
      return (more.map (row :: ·), c)

/-- The most rows that room can be asked for at once: an allocation has no more
than 2^63 - 1 bytes, and a row takes 32 of them. -/
def maxReserved : Nat := 0x7fffffffffffffff / 32

/-- Up to `size` rows, the array size by default. Room for all of them is asked
for before the first is fetched. Whether there is that much memory is left open. -/
def fetchMany (c : Cursor) (size : Option Nat) :
    Action σ (Except Failure (List ShapedRow) × Cursor) :=
  let size := size.getD c.arraySize
  if size ≤ maxReserved then c.fetchUpTo L size
  else return (.error (.panic .capacity), c)

/-- All rows that remain. The fuel bounds their number; `none` if it runs out. -/
def fetchAll : (fuel : Nat) → Cursor → Action σ (Option (Except Failure (List ShapedRow)) × Cursor)
  | 0, c => return (none, c)
  | fuel + 1, c => do
    match ← c.fetchOne L with
    | (.error e, c) => return (some (.error e), c)
    | (.ok none, c) => return (some (.ok []), c)
    | (.ok (some row), c) =>
      let (more, c) ← fetchAll fuel c
      return (more.map fun more => more.map (row :: ·), c)

end Cursor

end Querent.DbApi
